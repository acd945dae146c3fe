import ShiftPV.Reclaim

/-! Reasoning about operations of a node. While an operation runs, the API objects change under it and the disk does not: the
    lock keeps the other operations on the volume away. -/

namespace ShiftPV

variable {Api α β : Type}

/-! ### Programs that only look at the disk -/

namespace NodeOp

variable {p : NodeOp Api α} {d : Disk} {api : Api}

/-- What a program that only looks at the disk returns. -/
def value (p : NodeOp Api α) (d : Disk) (api : Api) : Except Fault α := (p.run ⟨d, api⟩).1

theorem look_views {f : Disk → Except Fault α} : (look f : NodeOp Api α).Views Host.disk :=
  .read fun _ _ h => by rw [h]

theorem ifExists_views (hp : p.Views Host.disk) : (ifExists p).Views Host.disk := by
  refine hp.attempt.bind fun r => ?_
  cases r with
  | ok a => exact .pure
  | error e =>
    show (if e.missing then _ else _ : NodeOp Api _).Views _
    split
    · exact .pure
    · exact .fail

@[simp] theorem value_pure {a : α} : value (pure a : NodeOp Api α) d api = .ok a := rfl

@[simp] theorem value_fail {e : Fault} : value (.fail e : NodeOp Api α) d api = .error e := rfl

@[simp] theorem value_look {f : Disk → Except Fault α} : value (look f : NodeOp Api α) d api = f d := rfl

theorem value_bind {f : α → NodeOp Api β} (hp : p.Views Host.disk) :
    value (p >>= f) d api = match value p d api with
      | .ok a => value (f a) d api
      | .error e => .error e := by
  have hs := hp.run_state ⟨d, api⟩
  unfold value
  rw [Proc.run_bind]
  rcases hr : p.run ⟨d, api⟩ with ⟨r, t⟩
  rw [hr] at hs
  cases r <;> simp_all

theorem value_bind_ok {f : α → NodeOp Api β} {b : β} (hp : p.Views Host.disk) :
    value (p >>= f) d api = .ok b ↔ ∃ a, value p d api = .ok a ∧ value (f a) d api = .ok b := by
  rw [value_bind hp]
  cases value p d api <;> simp

theorem value_ensure_ok {c : Prop} [Decidable c] {e : Fault} {u : Unit} :
    value (.ensure c e : NodeOp Api Unit) d api = .ok u ↔ c := by
  unfold Proc.ensure
  split <;> simp_all [value]

theorem value_ifExists (p : NodeOp Api α) : value (ifExists p) d api = match value p d api with
    | .ok a => .ok (some a)
    | .error e => if e.missing then .ok none else .error e := by
  unfold value ifExists
  rw [Proc.run_bind, Proc.run_attempt]
  cases (p.run ⟨d, api⟩).1 with
  | ok a => rfl
  | error e => cases h : e.missing <;> simp [h]

theorem value_ifExists_some {a : α} : value (ifExists p) d api = .ok (some a) ↔ value p d api = .ok a := by
  rw [value_ifExists]
  cases value p d api with
  | ok a => simp
  | error e => cases h : e.missing <;> simp [h]

theorem value_ifExists_none :
    value (ifExists p) d api = .ok none ↔ ∃ e, value p d api = .error e ∧ e.missing := by
  rw [value_ifExists]
  cases value p d api with
  | ok a => simp
  | error e => cases h : e.missing <;> simp [h]

theorem value_attempt (p : NodeOp Api α) : value p.attempt d api = .ok (value p d api) := by
  unfold value
  rw [Proc.run_attempt]

theorem value_mapError_ok {f : Fault → Fault} {a : α} : value (p.mapError f) d api = .ok a ↔ value p d api = .ok a := by
  unfold value
  rw [Proc.run_mapError]
  cases (p.run ⟨d, api⟩).1 <;> simp [Except.mapError]

theorem value_within_ok {text : String} {a : α} : value (within text p) d api = .ok a ↔ value p d api = .ok a :=
  value_mapError_ok

/-! What the calls of the store return. -/

section Calls

variable {area : Area} {name : String} {id : LiveID} {m : MarkerName} {expected : Marker}

theorem openArea_views : (openArea area : NodeOp Api Unit).Views Host.disk := look_views

theorem openArea_ok {u : Unit} : value (openArea area : NodeOp Api Unit) d api = .ok u ↔ (d.areas area).isSome := by
  simp only [openArea, value_look]
  split <;> simp_all

theorem openArea_missing : (∃ e, value (openArea area : NodeOp Api Unit) d api = .error e ∧ e.missing) ↔
    d.areas area = none := by
  simp only [openArea, value_look]
  split <;> simp_all [Fault.missing, Option.isSome_iff_ne_none]

theorem openDirectory_views : (openDirectory area name : NodeOp Api LiveID).Views Host.disk := look_views

theorem openDirectory_ok : value (openDirectory area name : NodeOp Api LiveID) d api = .ok id ↔ d.idAt area name = some id := by
  simp only [openDirectory, value_look, Disk.idAt]
  cases d.find area name with
  | none => simp
  | some entry => cases entry <;> simp [Entry.id?]

theorem openDirectory_missing :
    (∃ e, value (openDirectory area name : NodeOp Api LiveID) d api = .error e ∧ e.missing) ↔ d.find area name = none := by
  simp only [openDirectory, value_look]
  cases d.find area name with
  | none => simp [Fault.missing]
  | some entry => cases entry <;> simp [Fault.missing]

theorem openIdentityDirectory_views {expected : FileID} :
    (openIdentityDirectory area name expected : NodeOp Api Unit).Views Host.disk :=
  openDirectory_views.bind fun _ => .ensure

theorem openIdentityDirectory_ok {expected : FileID} {u : Unit} :
    value (openIdentityDirectory area name expected : NodeOp Api Unit) d api = .ok u ↔
      ∃ id, d.idAt area name = some id ∧ id.val = expected := by
  simp only [openIdentityDirectory, value_bind_ok openDirectory_views, openDirectory_ok, value_ensure_ok]

theorem openIdentityDirectory_missing {expected : FileID} :
    (∃ e, value (openIdentityDirectory area name expected : NodeOp Api Unit) d api = .error e ∧ e.missing) ↔
      d.find area name = none := by
  simp only [openIdentityDirectory, value_bind openDirectory_views]
  simp only [openDirectory, value_look]
  cases d.find area name with
  | none => simp [Fault.missing]
  | some entry =>
    cases entry with
    | directory id contents =>
      by_cases h : id.val = expected <;> simp [Proc.ensure, h, Fault.missing]
    | other => simp [Fault.missing]

theorem checkMarker_views : (checkMarker m expected : NodeOp Api Unit).Views Host.disk := look_views

theorem checkMarker_ok {u : Unit} : value (checkMarker m expected : NodeOp Api Unit) d api = .ok u ↔
    d.marker m = some expected := by
  simp only [checkMarker, value_look]
  cases d.marker m with
  | none => simp
  | some found => by_cases h : found = expected <;> simp [h]

theorem readMarker_views {decode : Marker → Option α} : (readMarker m decode : NodeOp Api α).Views Host.disk := look_views

theorem readMarker_ok {decode : Marker → Option α} {a : α} :
    value (readMarker m decode : NodeOp Api α) d api = .ok a ↔ ∃ found, d.marker m = some found ∧ decode found = some a := by
  simp only [readMarker, value_look]
  cases d.marker m with
  | none => simp
  | some found => cases h : decode found <;> simp [h]

theorem readMarker_missing {decode : Marker → Option α} :
    (∃ e, value (readMarker m decode : NodeOp Api α) d api = .error e ∧ e.missing) ↔ d.marker m = none := by
  simp only [readMarker, value_look]
  cases d.marker m with
  | none => simp [Fault.missing]
  | some found => cases h : decode found <;> simp [h, Fault.missing]

end Calls

/-! What the checks of the store accept. -/

theorem valid_tokens {identity : CopyIdentity} (h : identity.valid) :
    (validIdentityToken identity.installationID ∧ validIdentityToken identity.poolUID) ∧ validateID identity.volumeID := by
  simp only [CopyIdentity.valid, Bool.and_eq_true] at h
  obtain ⟨⟨⟨⟨⟨⟨⟨hinstallation, -⟩, hpool⟩, hvolume⟩, -⟩, -⟩, -⟩, -⟩ := h
  exact ⟨⟨hinstallation, hpool⟩, hvolume⟩

section Checks

variable {area : Area} {name copyID operationID : String} {record : Placement} {identity target : CopyIdentity}
  {expected : FileID} {u : Unit}

theorem verifyPath_views : (verifyPath area name record identity : NodeOp Api Unit).Views Host.disk :=
  Proc.Views.ensure.bind fun _ => openDirectory_views.bind fun _ => .ensure

theorem verifyPath_ok : value (verifyPath area name record identity : NodeOp Api Unit) d api = .ok u ↔
    record.identity = identity ∧ ∃ id, d.idAt area name = some id ∧ id.val = record.id := by
  simp only [verifyPath, value_bind_ok Proc.Views.ensure, value_bind_ok openDirectory_views, value_ensure_ok, openDirectory_ok,
    exists_const]
  constructor
  · rintro ⟨⟨hsame, -⟩, id, hid, hrecord⟩
    exact ⟨hsame, id, hid, hrecord⟩
  · rintro ⟨hsame, id, hid, hrecord⟩
    exact ⟨⟨hsame, hrecord ▸ id.property⟩, id, hid, hrecord⟩

theorem readPlacement_views : (readPlacement copyID : NodeOp Api Placement).Views Host.disk := readMarker_views

theorem readPlacement_ok : value (readPlacement copyID : NodeOp Api Placement) d api = .ok record ↔
    d.marker (.placement copyID) = some (.placement record) := by
  rw [readPlacement, readMarker_ok]
  constructor
  · rintro ⟨found, hfound, hdecode⟩
    cases found <;> simp_all
  · exact fun h => ⟨_, h, rfl⟩

theorem copyMarkerExists_views : (copyMarkerExists identity : NodeOp Api Bool).Views Host.disk :=
  (ifExists_views checkMarker_views).bind fun _ => .pure

theorem exactDirectoryPresent_views : (exactDirectoryPresent area name expected : NodeOp Api Bool).Views Host.disk :=
  (ifExists_views openIdentityDirectory_views).bind fun _ => .pure

theorem exactDirectoryPresent_true {id : LiveID} (h : d.idAt area name = some id) (hid : id.val = expected) :
    value (exactDirectoryPresent area name expected : NodeOp Api Bool) d api = .ok true := by
  rw [exactDirectoryPresent, value_bind_ok (ifExists_views openIdentityDirectory_views)]
  exact ⟨some (), value_ifExists_some.mpr (openIdentityDirectory_ok.mpr ⟨id, h, hid⟩), rfl⟩

theorem exactDirectoryPresent_false (h : d.find area name = none) :
    value (exactDirectoryPresent area name expected : NodeOp Api Bool) d api = .ok false := by
  rw [exactDirectoryPresent, value_bind_ok (ifExists_views openIdentityDirectory_views)]
  exact ⟨none, value_ifExists_none.mpr (openIdentityDirectory_missing.mpr h), rfl⟩

theorem openRoleParent_views : (openRoleParent identity : NodeOp Api (Area × String)).Views Host.disk := by
  unfold openRoleParent
  split
  · exact .fail
  · exact openArea_views.bind fun _ => .pure

theorem openRoleParent_ok {place : Area × String} :
    value (openRoleParent identity : NodeOp Api (Area × String)) d api = .ok place ↔
      rolePath identity = some place ∧ (d.areas place.1).isSome := by
  unfold openRoleParent
  split
  · rename_i hnone
    simp [hnone]
  · rename_i area name hplace
    simp only [value_bind_ok openArea_views, openArea_ok, value_pure, Except.ok.injEq, hplace, Option.some.injEq]
    constructor
    · rintro ⟨-, harea, rfl⟩
      exact ⟨rfl, harea⟩
    · rintro ⟨rfl, harea⟩
      exact ⟨(), harea, rfl⟩

theorem rolePath_retired {place : Area × String} (h : rolePath target = some place) :
    place = (.retired, target.copyID) ↔ target.role = .retired := by
  unfold rolePath at h
  cases hrole : target.role <;> simp_all <;> obtain rfl := h <;> simp

theorem verifyCurrentPath_views : (verifyCurrentPath record : NodeOp Api Unit).Views Host.disk :=
  openRoleParent_views.bind fun _ => verifyPath_views

theorem verifyCurrentPath_ok : value (verifyCurrentPath record : NodeOp Api Unit) d api = .ok u ↔
    ∃ area name id, rolePath record.identity = some (area, name) ∧ d.idAt area name = some id ∧ id.val = record.id := by
  simp only [verifyCurrentPath, value_bind_ok openRoleParent_views, openRoleParent_ok, verifyPath_ok, true_and, Prod.exists]
  constructor
  · rintro ⟨area, name, ⟨hplace, -⟩, id, hid, hrecord⟩
    exact ⟨area, name, id, hplace, hid, hrecord⟩
  · rintro ⟨area, name, id, hplace, hid, hrecord⟩
    exact ⟨area, name, ⟨hplace, Disk.areas_of_idAt hid⟩, id, hid, hrecord⟩

theorem verifyAbsent_views : (verifyAbsent target : NodeOp Api Unit).Views Host.disk := by
  unfold verifyAbsent
  split
  · exact .fail
  · refine (ifExists_views openArea_views).bind fun found => ?_
    cases found with
    | none => exact .pure
    | some _ =>
      refine (ifExists_views openDirectory_views).bind fun found => ?_
      cases found with
      | none => exact .pure
      | some _ => exact .fail

theorem verifyAbsent_ok : value (verifyAbsent target : NodeOp Api Unit) d api = .ok u ↔
    ∃ area name, rolePath target = some (area, name) ∧ d.find area name = none := by
  unfold verifyAbsent
  split
  · rename_i hnone
    simp [hnone]
  · rename_i area name hplace
    simp only [hplace, Option.some.injEq, Prod.mk.injEq]
    rw [value_bind_ok (ifExists_views openArea_views)]
    constructor
    · rintro ⟨found, harea, h⟩
      refine ⟨area, name, ⟨⟨rfl, rfl⟩, ?_⟩⟩
      cases found with
      | none =>
        have hnone := openArea_missing.mp (value_ifExists_none.mp harea)
        simp [Disk.find, hnone]
      | some _ =>
        obtain ⟨found, hfound, h⟩ := (value_bind_ok (ifExists_views openDirectory_views)).mp h
        cases found with
        | none => exact openDirectory_missing.mp (value_ifExists_none.mp hfound)
        | some id => simp at h
    · rintro ⟨area', name', ⟨⟨rfl, rfl⟩, hfind⟩⟩
      cases harea : d.areas area with
      | none => exact ⟨none, value_ifExists_none.mpr (openArea_missing.mpr harea), rfl⟩
      | some rows =>
        refine ⟨some (), value_ifExists_some.mpr (openArea_ok.mpr (by simp [harea])), ?_⟩
        refine (value_bind_ok (ifExists_views openDirectory_views)).mpr ⟨none, ?_, rfl⟩
        exact value_ifExists_none.mpr (openDirectory_missing.mpr hfind)

theorem localIntent_views : (localIntent target operationID : NodeOp Api (Option LocalIntent)).Views Host.disk := by
  refine (ifExists_views readMarker_views).bind fun found => ?_
  cases found with
  | none => exact .pure
  | some intent => exact Proc.Views.ensure.bind fun _ => .pure

theorem localIntent_some {intent : LocalIntent} :
    value (localIntent target operationID : NodeOp Api (Option LocalIntent)) d api = .ok (some intent) ↔
      d.marker (.cleanup operationID) = some (.cleanup intent) ∧ intent.operationID = operationID ∧ intent.target = target := by
  rw [localIntent, value_bind_ok (ifExists_views readMarker_views)]
  constructor
  · rintro ⟨found, hfound, h⟩
    cases found with
    | none => simp at h
    | some found =>
      obtain ⟨_, hsame, h⟩ := (value_bind_ok Proc.Views.ensure).mp h
      obtain rfl : found = intent := by simpa using h
      obtain ⟨m, hm, hdecode⟩ := readMarker_ok.mp (value_ifExists_some.mp hfound)
      refine ⟨?_, value_ensure_ok.mp hsame⟩
      cases m <;> simp_all
  · rintro ⟨hmarker, hsame⟩
    refine ⟨some intent, value_ifExists_some.mpr (readMarker_ok.mpr ⟨_, hmarker, rfl⟩), ?_⟩
    exact (value_bind_ok Proc.Views.ensure).mpr ⟨(), value_ensure_ok.mpr hsame, rfl⟩

theorem localIntent_none : value (localIntent target operationID : NodeOp Api (Option LocalIntent)) d api = .ok none ↔
    d.marker (.cleanup operationID) = none := by
  rw [localIntent, value_bind_ok (ifExists_views readMarker_views)]
  constructor
  · rintro ⟨found, hfound, h⟩
    cases found with
    | none => exact readMarker_missing.mp (value_ifExists_none.mp hfound)
    | some found =>
      obtain ⟨-, -, h⟩ := (value_bind_ok Proc.Views.ensure).mp h
      simp at h
  · exact fun h => ⟨none, value_ifExists_none.mpr (readMarker_missing.mpr h), rfl⟩

theorem openExisting_views {pool : PoolIdentity} : (openExisting pool : NodeOp Api Unit).Views Host.disk :=
  Proc.Views.ensure.bind fun _ => checkMarker_views

theorem openExisting_ok {pool : PoolIdentity} : value (openExisting pool : NodeOp Api Unit) d api = .ok u ↔
    (validIdentityToken pool.installationID ∧ validIdentityToken pool.poolUID) ∧ d.marker .pool = some (.pool pool) := by
  simp only [openExisting, value_bind_ok Proc.Views.ensure, value_ensure_ok, checkMarker_ok, exists_const]

theorem acquire_views {pool : PoolIdentity} {volumeID : String} : (acquire pool volumeID : NodeOp Api Unit).Views Host.disk :=
  Proc.Views.ensure.bind fun _ => checkMarker_views

theorem acquire_ok {pool : PoolIdentity} {volumeID : String} : value (acquire pool volumeID : NodeOp Api Unit) d api = .ok u ↔
    validateID volumeID ∧ d.marker .pool = some (.pool pool) := by
  simp only [acquire, value_bind_ok Proc.Views.ensure, value_ensure_ok, checkMarker_ok, exists_const]

theorem cleanupEffectStarted_views {intent : LocalIntent} :
    (cleanupEffectStarted target intent : NodeOp Api Bool).Views Host.disk := by
  unfold cleanupEffectStarted
  refine (ifExists_views openRoleParent_views).bind fun found => ?_
  rcases found with _ | place
  case' none => refine Proc.Views.pure.bind fun sourcePresent => ?_
  case' some => refine exactDirectoryPresent_views.bind fun sourcePresent => ?_
  all_goals
    beta_reduce
    split
    · exact .pure
    · refine (ifExists_views openArea_views).bind fun found => ?_
      cases found with
      | none => exact Proc.Views.pure.bind fun _ => Proc.Views.ensure.bind fun _ => .pure
      | some _ => exact exactDirectoryPresent_views.bind fun _ => Proc.Views.ensure.bind fun _ => .pure

theorem readReceipt_views : (readReceipt operationID : NodeOp Api (Option Receipt)).Views Host.disk :=
  ifExists_views readMarker_views

theorem readReceipt_some {receipt : Receipt} :
    value (readReceipt operationID : NodeOp Api (Option Receipt)) d api = .ok (some receipt) ↔
      d.marker (.receipt operationID) = some (.receipt receipt) := by
  rw [readReceipt, value_ifExists_some, readMarker_ok]
  constructor
  · rintro ⟨m, hm, hdecode⟩
    cases m <;> simp_all
  · exact fun h => ⟨_, h, rfl⟩

theorem readReceipt_none : value (readReceipt operationID : NodeOp Api (Option Receipt)) d api = .ok none ↔
    d.marker (.receipt operationID) = none := by
  rw [readReceipt, value_ifExists_none, readMarker_missing]

theorem readTransferReceipt_views {m : MarkerName} :
    (readTransferReceipt m : NodeOp Api TransferReceipt).Views Host.disk := readMarker_views

theorem readTransferReceipt_ok {m : MarkerName} {receipt : TransferReceipt} :
    value (readTransferReceipt m : NodeOp Api TransferReceipt) d api = .ok receipt ↔
      d.marker m = some (.transfer receipt) := by
  rw [readTransferReceipt, readMarker_ok]
  constructor
  · rintro ⟨found, hfound, hdecode⟩
    cases found <;> simp_all
  · exact fun h => ⟨_, h, rfl⟩

theorem verifyServing_views : (verifyServing identity : NodeOp Api Unit).Views Host.disk :=
  checkMarker_views.bind fun _ => readPlacement_views.bind fun _ => openArea_views.bind fun _ => verifyPath_views

theorem verifyServing_ok : value (verifyServing identity : NodeOp Api Unit) d api = .ok u ↔
    d.marker (.copy identity.copyID) = some (.copy identity) ∧
      ∃ id, d.marker (.placement identity.copyID) = some (.placement { identity, id := id.val }) ∧
        d.idAt .volumes identity.volumeID = some id := by
  simp only [verifyServing, value_bind_ok checkMarker_views, value_bind_ok readPlacement_views, value_bind_ok openArea_views,
    checkMarker_ok, readPlacement_ok, openArea_ok, verifyPath_ok, exists_const]
  constructor
  · rintro ⟨hcopy, ⟨_, _⟩, hplacement, -, rfl, id, hid, rfl⟩
    exact ⟨hcopy, id, hplacement, hid⟩
  · rintro ⟨hcopy, id, hplacement, hid⟩
    exact ⟨hcopy, _, hplacement, Disk.areas_of_idAt hid, rfl, id, hid, rfl⟩

end Checks

end NodeOp

/-! ### Operations under interference -/

/-- How the API may move on, and what must hold whenever an operation is stopped. -/
structure Setting (Api : Type) where
  later : Api → Api → Prop
  refl : ∀ api, later api api
  trans : ∀ {a b c}, later a b → later b c → later a c
  inv : Host Api → Prop
  stable : ∀ {disk a b}, later a b → inv ⟨disk, a⟩ → inv ⟨disk, b⟩

namespace Setting

variable (S : Setting Api)

def rely (h t : Host Api) : Prop := h.disk = t.disk ∧ S.later h.api t.api

def Lasting (A : Api → Prop) : Prop := ∀ {a b}, S.later a b → A a → A b

/-- Started on `d` while `A` holds, `p` keeps the invariant at every step and ends in `Q`. -/
def Keeps (A : Api → Prop) (d : Disk) (p : NodeOp Api α) (Q : Except Fault α → Disk → Prop) : Prop :=
  ∀ api, A api → S.inv ⟨d, api⟩ →
    p.Meets S.rely (fun _ t => S.inv t) (fun r t => Q r t.disk ∧ A t.api ∧ S.inv t) ⟨d, api⟩

variable {S} {A A' : Api → Prop} {d : Disk} {p : NodeOp Api α} {Q Q' : Except Fault α → Disk → Prop}

theorem rely_refl (h : Host Api) : S.rely h h := ⟨rfl, S.refl _⟩

theorem rely_trans {h t u : Host Api} (hst : S.rely h t) (htu : S.rely t u) : S.rely h u :=
  ⟨hst.1.trans htu.1, S.trans hst.2 htu.2⟩

theorem Keeps.mono (h : S.Keeps A d p Q) (hq : ∀ r d', Q r d' → Q' r d') : S.Keeps A d p Q' :=
  fun api ha hi => (h api ha hi).mono fun r t ht => ⟨hq r t.disk ht.1, ht.2⟩

theorem keeps_pure {a : α} (h : Q (.ok a) d) : S.Keeps A d (pure a : NodeOp Api α) Q := fun _ ha hi => ⟨h, ha, hi⟩

theorem keeps_fail {e : Fault} (h : Q (.error e) d) : S.Keeps A d (.fail e : NodeOp Api α) Q := fun _ ha hi => ⟨h, ha, hi⟩

theorem keeps_bind {f : α → NodeOp Api β} {Q : Except Fault β → Disk → Prop}
    (h : S.Keeps A d p fun r d' => match r with
      | .ok a => S.Keeps A d' (f a) Q
      | .error e => Q (.error e) d') : S.Keeps A d (p >>= f) Q := by
  intro api ha hi
  refine Proc.meets_bind.mpr ((h api ha hi).mono fun r t ht => ?_)
  obtain ⟨hq, hat, hit⟩ := ht
  cases r with
  | ok a => exact hq t.api hat hit
  | error e => exact ⟨hq, hat, hit⟩

theorem keeps_within {text : String} (h : S.Keeps A d p fun r => Q (r.mapError (.wrapped text))) :
    S.Keeps A d (NodeOp.within text p) Q :=
  fun api ha hi => Proc.meets_mapError.mpr (h api ha hi)

theorem keeps_ensure_bind {c : Prop} [Decidable c] {e : Fault} {f : Unit → NodeOp Api β} {Q : Except Fault β → Disk → Prop}
    (hc : c) (h : S.Keeps A d (f ()) Q) : S.Keeps A d (.ensure c e >>= f) Q := by
  rw [Proc.ensure, if_pos hc]
  exact h

theorem keeps_ensure {c : Prop} [Decidable c] {e : Fault} {Q : Except Fault Unit → Disk → Prop} (hok : c → Q (.ok ()) d)
    (herror : ¬c → Q (.error e) d) : S.Keeps A d (.ensure c e : NodeOp Api Unit) Q :=
  fun _ ha hi => Proc.meets_ensure.mpr ⟨fun hc => ⟨hok hc, ha, hi⟩, fun hc => ⟨herror hc, ha, hi⟩⟩

theorem keeps_view (hp : p.Views Host.disk) (hA : S.Lasting A) (h : ∀ api, Q (NodeOp.value p d api) d) : S.Keeps A d p Q := by
  intro api ha hi
  refine hp.meets rely_refl rely_trans (fun h => h.1) fun t ht => ?_
  obtain ⟨rfl, hlater⟩ := ht
  exact ⟨S.stable hlater hi, h api, hA hlater ha, S.stable hlater hi⟩

theorem keeps_view_bind {a : α} {f : α → NodeOp Api β} {Q : Except Fault β → Disk → Prop} (hp : p.Views Host.disk)
    (hA : S.Lasting A) (hv : ∀ api, NodeOp.value p d api = .ok a) (h : S.Keeps A d (f a) Q) : S.Keeps A d (p >>= f) Q :=
  keeps_bind (keeps_view hp hA fun api => by rw [hv api]; exact h)

theorem keeps_view_cases {f : α → NodeOp Api β} {Q : Except Fault β → Disk → Prop} (hp : p.Views Host.disk)
    (hA : S.Lasting A) (hok : ∀ a api, NodeOp.value p d api = .ok a → S.Keeps A d (f a) Q) (herror : ∀ e, Q (.error e) d) :
    S.Keeps A d (p >>= f) Q := by
  refine keeps_bind (keeps_view hp hA fun api => ?_)
  cases hv : NodeOp.value p d api with
  | ok a => exact hok a api hv
  | error e => exact herror e

theorem keeps_attempt_bind {f : Except Fault α → NodeOp Api β} {Q : Except Fault β → Disk → Prop} (hp : p.Views Host.disk)
    (hA : S.Lasting A) (h : ∀ api, S.Keeps A d (f (NodeOp.value p d api)) Q) : S.Keeps A d (p.attempt >>= f) Q :=
  keeps_bind (keeps_view hp.attempt hA fun api => by rw [NodeOp.value_attempt]; exact h api)

theorem keeps_change {f : Disk → Except Fault (α × Disk)} (hA : S.Lasting A)
    (h : match f d with
      | .ok (a, d') => (∀ api, A api → S.inv ⟨d, api⟩ → S.inv ⟨d', api⟩) ∧ Q (.ok a) d'
      | .error e => Q (.error e) d) : S.Keeps A d (NodeOp.change f) Q := by
  intro api ha hi
  refine Proc.meets_atomic.mpr fun t ht => ?_
  obtain ⟨rfl, hlater⟩ := ht
  have hit := S.stable hlater hi
  have hat := hA hlater ha
  cases hf : f t.disk with
  | ok v | error e => simp_all [Except.map]

theorem keeps_ensureMarker {m : MarkerName} {v : Marker} {Q : Except Fault Unit → Disk → Prop} (hA : S.Lasting A)
    (hm : d.marker m = none ∨ d.marker m = some v)
    (h : ∀ d', d.SameBut m d' → d'.marker m = some v →
      (∀ api, A api → S.inv ⟨d, api⟩ → S.inv ⟨d', api⟩) ∧ Q (.ok ()) d') : S.Keeps A d (NodeOp.ensureMarker m v) Q := by
  refine keeps_change hA ?_
  rcases hm with hm | hm
  · simp only [hm]
    exact h _ .putMarker Disk.marker_putMarker_self
  · simp only [hm, if_true]
    exact h d (.refl d) hm

theorem keeps_ensureMarker_any {m : MarkerName} {v : Marker} {Q : Except Fault Unit → Disk → Prop} (hA : S.Lasting A)
    (h : ∀ d', d.SameBut m d' → d'.marker m = some v →
      (∀ api, A api → S.inv ⟨d, api⟩ → S.inv ⟨d', api⟩) ∧ Q (.ok ()) d')
    (herror : ∀ e, Q (.error e) d) : S.Keeps A d (NodeOp.ensureMarker m v) Q := by
  by_cases hm : d.marker m = none ∨ d.marker m = some v
  · exact keeps_ensureMarker hA hm h
  · rw [not_or] at hm
    refine keeps_change hA ?_
    cases hfound : d.marker m with
    | none => exact absurd hfound hm.1
    | some found =>
      have hne : found ≠ v := fun hsame => hm.2 (by rw [hfound, hsame])
      simp only [hne, if_false]
      exact herror _

theorem keeps_removeMarker {m : MarkerName} {v : Marker} {Q : Except Fault Unit → Disk → Prop} (hA : S.Lasting A)
    (hm : d.marker m = none ∨ d.marker m = some v)
    (h : ∀ d', d.SameBut m d' → d'.marker m = none →
      (∀ api, A api → S.inv ⟨d, api⟩ → S.inv ⟨d', api⟩) ∧ Q (.ok ()) d') : S.Keeps A d (NodeOp.removeMarker m v) Q := by
  refine keeps_change hA ?_
  rcases hm with hm | hm
  · simp only [hm]
    exact h d (.refl d) hm
  · simp only [hm, if_true]
    exact h _ .eraseMarker Disk.marker_eraseMarker_self

variable {authority : Api → Except Fault Unit}

theorem keeps_consult {f : Unit → NodeOp Api β} {Q : Except Fault β → Disk → Prop}
    (hA : S.Lasting A) (hweaker : ∀ api, A' api → A api)
    (hgranted : ∀ api, A api → S.inv ⟨d, api⟩ → authority api = .ok () → A' api ∧ S.Keeps A' d (f ()) Q)
    (hrefused : ∀ api e, authority api = .error e → Q (.error e) d) : S.Keeps A d (NodeOp.consult authority >>= f) Q := by
  intro api ha hi
  refine Proc.meets_bind.mpr (Proc.meets_read.mpr fun t ht => ?_)
  obtain ⟨rfl, hlater⟩ := ht
  have hit := S.stable hlater hi
  have hat := hA hlater ha
  refine ⟨hit, ?_⟩
  cases hgrant : authority t.api with
  | ok u =>
    obtain ⟨hnew, hkeeps⟩ := hgranted t.api hat hit hgrant
    exact (hkeeps t.api hnew hit).mono fun r u hu => ⟨hu.1, hweaker _ hu.2.1, hu.2.2⟩
  | error e => exact ⟨hrefused t.api e hgrant, hat, hit⟩

theorem keeps_asked {Q : Except Fault Unit → Disk → Prop} (hA : S.Lasting A)
    (h : ∀ api, Q (authority api) d) : S.Keeps A d (NodeOp.consult authority) Q := by
  intro api ha hi
  refine Proc.meets_read.mpr fun t ht => ?_
  obtain ⟨rfl, hlater⟩ := ht
  exact ⟨S.stable hlater hi, h t.api, hA hlater ha, S.stable hlater hi⟩

theorem keeps_grant {Q : Except Fault Unit → Disk → Prop} (hA : S.Lasting A)
    (hgrants : ∀ api, authority api = .ok ()) (h : Q (.ok ()) d) : S.Keeps A d (NodeOp.consult authority) Q :=
  keeps_asked hA fun api => by rw [hgrants]; exact h

theorem keeps_granted {f : Unit → NodeOp Api β} {Q : Except Fault β → Disk → Prop}
    (hA : S.Lasting A) (hgrants : ∀ api, authority api = .ok ()) (h : S.Keeps A d (f ()) Q) :
    S.Keeps A d (NodeOp.consult authority >>= f) Q :=
  keeps_bind (keeps_grant hA hgrants h)

theorem keeps_does {G : Host Api → Host Api → Prop} (hp : p.Does G) (hG : ∀ {h t}, G h t → S.inv h → S.inv t) :
    S.Keeps (fun _ => True) d p fun _ _ => True := by
  intro api _ hi
  have hrely : ∀ {h t : Host Api}, S.rely h t → S.inv h → S.inv t := by
    rintro ⟨disk, a⟩ ⟨_, b⟩ ⟨rfl, hlater⟩ h
    exact S.stable hlater h
  exact (hp.keeps (I := S.inv) hrely hG hi).mono fun _ _ ht => ⟨trivial, trivial, ht⟩

theorem Keeps.alone {h : Host Api} (hk : S.Keeps (fun _ => True) h.disk p Q) (hi : S.inv h) :
    p.Meets (· = ·) (fun _ t => S.inv t) (fun r t => Q r t.disk) h := by
  have halone : ∀ {s t : Host Api}, s = t → S.rely s t := fun hst => hst ▸ rely_refl _
  exact ((hk h.api trivial hi).calmer halone).mono fun _ _ ht => ht.1

end Setting

end ShiftPV

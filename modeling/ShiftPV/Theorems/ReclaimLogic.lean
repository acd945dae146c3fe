import ShiftPV.Theorems.NodeLogic

/-! Reclaims among other operations. Others may do anything to a Pool but touch the places and markers of the copy; a
    program that looks at nothing else then returns what it would return alone, and its own steps stay on the paths of
    the copy. -/

namespace ShiftPV
open NodeOp

variable {Api α β : Type}

/-! ### What others leave alone -/

def CopyPath (target : CopyIdentity) (place : Area × String) : Prop :=
  rolePath target = some place ∨ place = (.retired, target.copyID)

def reclaimMarkers (target : CopyIdentity) (operationID : String) : List MarkerName :=
  [.pool, .copy target.copyID, .placement target.copyID, .cleanup operationID, .receipt operationID]

/-- Others did nothing to the places and markers of a copy. The directories above them may have been made. -/
structure LeftAlone (target : CopyIdentity) (operationID : String) (d e : Disk) : Prop where
  find : ∀ {area name}, CopyPath target (area, name) → e.find area name = d.find area name
  marker : ∀ {m}, m ∈ reclaimMarkers target operationID → e.marker m = d.marker m
  area : ∀ {a}, (d.areas a).isSome → (e.areas a).isSome

namespace LeftAlone

variable {target : CopyIdentity} {operationID : String} {d e f : Disk} {area : Area} {name : String}

theorem refl (d : Disk) : LeftAlone target operationID d d := ⟨fun _ => rfl, fun _ => rfl, fun h => h⟩

theorem trans (h : LeftAlone target operationID d e) (h' : LeftAlone target operationID e f) :
    LeftAlone target operationID d f :=
  ⟨fun hp => (h'.find hp).trans (h.find hp), fun hm => (h'.marker hm).trans (h.marker hm), fun ha => h'.area (h.area ha)⟩

theorem makeArea (h : LeftAlone target operationID d e) :
    LeftAlone target operationID (d.makeArea area) (e.makeArea area) := by
  refine ⟨fun hp => by simpa using h.find hp, fun hm => by simpa using h.marker hm, fun {a} ha => ?_⟩
  by_cases hsame : a = area
  · exact hsame ▸ Disk.areas_makeArea
  · refine Disk.areas_makeArea_of (h.area ?_)
    unfold Disk.makeArea at ha
    split at ha
    · exact ha
    · simpa [Disk.setArea, hsame] using ha

theorem put {entry : Entry} (h : LeftAlone target operationID d e) :
    LeftAlone target operationID (d.put area name entry) (e.put area name entry) := by
  refine ⟨fun hp => by simp only [Disk.find_put, h.find hp], h.marker, fun {a} ha => ?_⟩
  simp only [Disk.put, Disk.setArea] at ha ⊢
  split
  · rfl
  · rename_i hne
    exact h.area (by simpa [hne] using ha)

theorem erase (h : LeftAlone target operationID d e) :
    LeftAlone target operationID (d.erase area name) (e.erase area name) := by
  refine ⟨fun hp => by simp only [Disk.find_erase, h.find hp], h.marker, fun {a} ha => Disk.areas_erase (h.area ?_)⟩
  simp only [Disk.erase, Disk.setArea] at ha
  split at ha
  · rename_i hsame
    simpa [hsame] using ha
  · exact ha

theorem putMarker {m : MarkerName} {v : Marker} (h : LeftAlone target operationID d e) :
    LeftAlone target operationID (d.putMarker m v) (e.putMarker m v) :=
  ⟨h.find, fun hm => by simp only [Disk.marker_putMarker, h.marker hm], h.area⟩

theorem eraseMarker {m : MarkerName} (h : LeftAlone target operationID d e) :
    LeftAlone target operationID (d.eraseMarker m) (e.eraseMarker m) :=
  ⟨h.find, fun hm => by simp only [Disk.marker_eraseMarker, h.marker hm], h.area⟩

end LeftAlone

structure ReclaimCase where
  target : CopyIdentity
  operationID : String
  place : Area × String
  role : rolePath target = some place

variable {c : ReclaimCase} {I : Disk → Prop} {d : Disk} {p : NodeOp Api α}

theorem ReclaimCase.place_retired (c : ReclaimCase) :
    c.place = (.retired, c.target.copyID) ↔ c.target.role = .retired := rolePath_retired c.role

namespace ReclaimCase

variable (c : ReclaimCase) (I : Disk → Prop)

/-- What others do, to the disk and to the API. -/
def aside (h t : Host Api) : Prop := LeftAlone c.target c.operationID h.disk t.disk

/-- A step of a reclaim: it keeps `I` and every path but those of the copy. -/
def Own (h t : Host Api) : Prop :=
  (∃ d, LeftAlone c.target c.operationID d t.disk ∧ I d) ∧
    ∀ area name, ¬CopyPath c.target (area, name) → t.disk.find area name = h.disk.find area name

/-- Where the copy looks as on `d`, `p` takes such steps only, and ends in `Q`. -/
def Endures (d : Disk) (p : NodeOp Api α) (Q : Except Fault α → Disk → Prop) : Prop :=
  ∀ h : Host Api, LeftAlone c.target c.operationID d h.disk →
    p.Meets c.aside (c.Own I) (fun r t => ∃ d', LeftAlone c.target c.operationID d' t.disk ∧ Q r d') h

/-- `p` only looks, and returns what it would return alone on `d`. -/
def Steady (d : Disk) (p : NodeOp Api α) : Prop :=
  ∀ h : Host Api, LeftAlone c.target c.operationID d h.disk →
    p.Meets c.aside (fun t u => u = t ∧ LeftAlone c.target c.operationID d t.disk)
      (fun r t => (∀ api, r = value p d api) ∧ LeftAlone c.target c.operationID d t.disk) h

end ReclaimCase

open ReclaimCase

/-! Looks that others do not disturb. -/

section Looks

variable {area : Area} {name : String} {m : MarkerName}

theorem steady_look {f : Disk → Except Fault α} (hf : ∀ e, LeftAlone c.target c.operationID d e → f e = f d) :
    c.Steady d (look f : NodeOp Api α) := by
  refine fun h hh => Proc.meets_read.mpr fun t ht => ?_
  have hdt := hh.trans ht
  exact ⟨⟨rfl, hdt⟩, fun _ => hf _ hdt, hdt⟩

theorem steady_pure {a : α} : c.Steady d (pure a : NodeOp Api α) := fun _ hh => ⟨fun _ => rfl, hh⟩

theorem steady_fail {e : Fault} : c.Steady d (.fail e : NodeOp Api α) := fun _ hh => ⟨fun _ => rfl, hh⟩

theorem steady_ensure {q : Prop} [Decidable q] {e : Fault} : c.Steady d (.ensure q e : NodeOp Api Unit) := by
  unfold Proc.ensure
  split
  exacts [steady_pure, steady_fail]

theorem ReclaimCase.Steady.bind {f : α → NodeOp Api β} (hp : c.Steady d p) (hviews : p.Views Host.disk)
    (hf : ∀ a api, value p d api = .ok a → c.Steady d (f a)) : c.Steady d (p >>= f) := by
  refine fun h hh => Proc.meets_bind.mpr ((hp h hh).mono fun r t ht => ?_)
  obtain ⟨hr, hdt⟩ := ht
  cases r with
  | ok a =>
    refine (hf a h.api (hr h.api).symm t hdt).mono fun r u hu => ⟨fun api => ?_, hu.2⟩
    rw [value_bind hviews, ← hr api]
    exact hu.1 api
  | error e => exact ⟨fun api => by rw [value_bind hviews, ← hr api], hdt⟩

theorem ReclaimCase.Steady.attempt (hp : c.Steady d p) : c.Steady d p.attempt := fun h hh =>
  Proc.meets_attempt.mpr ((hp h hh).mono fun _ _ ht => ⟨fun api => by rw [value_attempt, ← ht.1 api], ht.2⟩)

theorem ReclaimCase.Steady.mapError {f : Fault → Fault} (hp : c.Steady d p) : c.Steady d (p.mapError f) := fun h hh =>
  Proc.meets_mapError.mpr ((hp h hh).mono fun _ _ ht =>
    ⟨fun api => by rw [ht.1 api, value, value, Proc.run_mapError], ht.2⟩)

theorem steady_ifExists (hp : c.Steady d p) (hviews : p.Views Host.disk) : c.Steady d (ifExists p) := by
  refine hp.attempt.bind hviews.attempt fun r _ _ => ?_
  cases r with
  | ok a => exact steady_pure
  | error e =>
    show c.Steady d (if e.missing then _ else _ : NodeOp Api _)
    split
    exacts [steady_pure, steady_fail]

theorem steady_openArea (h : (d.areas area).isSome) : c.Steady d (openArea area : NodeOp Api Unit) :=
  steady_look fun _ he => by simp [h, he.area h]

theorem steady_openDirectory (hpath : CopyPath c.target (area, name)) :
    c.Steady d (openDirectory area name : NodeOp Api LiveID) :=
  steady_look fun _ he => by rw [he.find hpath]

theorem steady_openIdentityDirectory {expected : FileID} (hpath : CopyPath c.target (area, name)) :
    c.Steady d (openIdentityDirectory area name expected : NodeOp Api Unit) :=
  (steady_openDirectory hpath).bind openDirectory_views fun _ _ _ => steady_ensure

theorem steady_exactDirectoryPresent {expected : FileID} (hpath : CopyPath c.target (area, name)) :
    c.Steady d (exactDirectoryPresent area name expected : NodeOp Api Bool) :=
  (steady_ifExists (steady_openIdentityDirectory hpath) openIdentityDirectory_views).bind
    (ifExists_views openIdentityDirectory_views) fun _ _ _ => steady_pure

theorem steady_checkMarker {expected : Marker} (hm : m ∈ reclaimMarkers c.target c.operationID) :
    c.Steady d (checkMarker m expected : NodeOp Api Unit) :=
  steady_look fun _ he => by rw [he.marker hm]

theorem steady_readMarker {decode : Marker → Option α} (hm : m ∈ reclaimMarkers c.target c.operationID) :
    c.Steady d (readMarker m decode : NodeOp Api α) :=
  steady_look fun _ he => by rw [he.marker hm]

theorem steady_readPlacement : c.Steady d (readPlacement c.target.copyID : NodeOp Api Placement) :=
  steady_readMarker (by simp [reclaimMarkers])

theorem steady_readReceipt : c.Steady d (readReceipt c.operationID : NodeOp Api (Option Receipt)) :=
  steady_ifExists (steady_readMarker (by simp [reclaimMarkers])) readMarker_views

theorem steady_checkPool {q : Prop} [Decidable q] {e : Fault} {expected : Marker} :
    c.Steady d (.ensure q e >>= fun _ => checkMarker .pool expected : NodeOp Api Unit) :=
  steady_ensure.bind .ensure fun _ _ _ => steady_checkMarker (by simp [reclaimMarkers])

theorem steady_localIntent : c.Steady d (localIntent c.target c.operationID : NodeOp Api (Option LocalIntent)) := by
  refine (steady_ifExists (steady_readMarker (by simp [reclaimMarkers])) readMarker_views).bind
    (ifExists_views readMarker_views) fun found _ _ => ?_
  cases found with
  | none => exact steady_pure
  | some intent => exact steady_ensure.bind .ensure fun _ _ _ => steady_pure

theorem steady_openRoleParent (harea : (d.areas c.place.1).isSome) :
    c.Steady d (openRoleParent c.target : NodeOp Api (Area × String)) := by
  unfold openRoleParent
  rw [c.role]
  exact (steady_openArea harea).bind openArea_views fun _ _ _ => steady_pure

theorem steady_verifyCurrentPath {id : FileID} (harea : (d.areas c.place.1).isSome) :
    c.Steady d (verifyCurrentPath { identity := c.target, id } : NodeOp Api Unit) := by
  refine (steady_openRoleParent harea).bind openRoleParent_views fun place api hplace => ?_
  have hpath : CopyPath c.target place := .inl (openRoleParent_ok.mp hplace).1
  exact steady_ensure.bind .ensure fun _ _ _ =>
    (steady_openDirectory hpath).bind openDirectory_views fun _ _ _ => steady_ensure

theorem steady_verifyAbsent (harea : (d.areas c.place.1).isSome) : c.Steady d (verifyAbsent c.target : NodeOp Api Unit) := by
  unfold verifyAbsent
  rw [c.role]
  refine (steady_ifExists (steady_openArea harea) openArea_views).bind (ifExists_views openArea_views) fun found _ _ => ?_
  cases found with
  | none => exact steady_pure
  | some _ =>
    refine (steady_ifExists (steady_openDirectory (.inl c.role)) openDirectory_views).bind
      (ifExists_views openDirectory_views) fun found _ _ => ?_
    cases found with
    | none => exact steady_pure
    | some _ => exact steady_fail

def retiredPresent (target : CopyIdentity) (expected : FileID) : NodeOp Api Bool := do
  match ← ifExists (openArea .retired) with
  | none => pure false
  | some _ => exactDirectoryPresent .retired target.copyID expected

theorem retiredPresent_views {target : CopyIdentity} {expected : FileID} :
    (retiredPresent target expected : NodeOp Api Bool).Views Host.disk := by
  refine (ifExists_views openArea_views).bind fun found => ?_
  cases found with
  | none => exact .pure
  | some _ => exact exactDirectoryPresent_views

/-- The parent of the retired directories may be made meanwhile, and holds nothing of the copy then. -/
theorem steady_retiredPresent {expected : FileID} : c.Steady d (retiredPresent c.target expected : NodeOp Api Bool) := by
  have hexact : c.Steady d (exactDirectoryPresent .retired c.target.copyID expected : NodeOp Api Bool) :=
    steady_exactDirectoryPresent (.inr rfl)
  cases harea : d.areas .retired with
  | some rows =>
    refine (steady_ifExists (steady_openArea (by simp [harea])) openArea_views).bind (ifExists_views openArea_views)
      fun found _ _ => ?_
    cases found with
    | none => exact steady_pure
    | some _ => exact hexact
  | none =>
    have hvalue : ∀ api : Api, value (retiredPresent c.target expected) d api = .ok false := by
      intro api
      rw [retiredPresent, value_bind (ifExists_views openArea_views), value_ifExists_none.mpr (openArea_missing.mpr harea)]
      rfl
    intro h hh
    refine Proc.meets_bind.mpr (Proc.meets_bind.mpr (Proc.meets_attempt.mpr (Proc.meets_read.mpr fun t ht => ?_)))
    have hdt := hh.trans ht
    refine ⟨⟨rfl, hdt⟩, ?_⟩
    by_cases hmade : (t.disk.areas .retired).isSome
    · simp only [hmade, if_true]
      refine (hexact t hdt).mono fun r u hu => ⟨fun api => ?_, hu.2⟩
      rw [hvalue, hu.1 api]
      exact exactDirectoryPresent_false (by simp [Disk.find, harea])
    · simp only [hmade, Bool.false_eq_true, if_false]
      exact ⟨fun api => (hvalue api).symm, hdt⟩

theorem steady_cleanupEffectStarted {intent : LocalIntent} (harea : (d.areas c.place.1).isSome) :
    c.Steady d (cleanupEffectStarted c.target intent : NodeOp Api Bool) := by
  have hrest : ∀ source : Bool, c.Steady d (do
      if c.target.role = .retired then return !source
      let retired ← match ← ifExists (openArea .retired) with
        | none => pure false
        | some _ => exactDirectoryPresent .retired c.target.copyID intent.id
      .ensure (¬(source ∧ retired)) .identity
      return !source || retired : NodeOp Api Bool) := by
    intro source
    split
    · exact steady_pure
    · have hsteady : c.Steady d (retiredPresent c.target intent.id >>= fun retired => do
          .ensure (¬(source ∧ retired)) .identity
          return !source || retired : NodeOp Api Bool) :=
        steady_retiredPresent.bind retiredPresent_views fun _ _ _ => steady_ensure.bind .ensure fun _ _ _ => steady_pure
      rw [retiredPresent, Proc.bind_assoc] at hsteady
      refine (congrArg (c.Steady d) (congrArg _ (funext fun found => ?_))).mpr hsteady
      cases found <;> rfl
  refine (steady_ifExists (steady_openRoleParent harea) openRoleParent_views).bind (ifExists_views openRoleParent_views)
    fun found api hfound => ?_
  cases found with
  | none => exact steady_pure.bind .pure fun source _ _ => hrest source
  | some place =>
    have hpath : CopyPath c.target place := .inl (openRoleParent_ok.mp (value_ifExists_some.mp hfound)).1
    exact (steady_exactDirectoryPresent hpath).bind exactDirectoryPresent_views fun source _ _ => hrest source

end Looks

/-! Rules for operations. -/

section Rules

variable {Q Q' : Except Fault α → Disk → Prop} {f : α → NodeOp Api β} {Q₂ : Except Fault β → Disk → Prop}

theorem ReclaimCase.Endures.mono (h : c.Endures I d p Q) (hq : ∀ r d', Q r d' → Q' r d') : c.Endures I d p Q' := by
  refine fun host hh => (h host hh).mono fun r t ht => ?_
  obtain ⟨d', hd', hr⟩ := ht
  exact ⟨d', hd', hq r d' hr⟩

theorem endures_pure {a : α} (h : Q (.ok a) d) : c.Endures I d (pure a : NodeOp Api α) Q := fun _ hh => ⟨d, hh, h⟩

theorem endures_fail {e : Fault} (h : Q (.error e) d) : c.Endures I d (.fail e : NodeOp Api α) Q := fun _ hh => ⟨d, hh, h⟩

theorem endures_bind (h : c.Endures I d p fun r d' => match r with
      | .ok a => c.Endures I d' (f a) Q₂
      | .error e => Q₂ (.error e) d') : c.Endures I d (p >>= f) Q₂ := by
  refine fun host hh => Proc.meets_bind.mpr ((h host hh).mono fun r t ht => ?_)
  obtain ⟨d', hd', hr⟩ := ht
  cases r with
  | ok a => exact hr t hd'
  | error e => exact ⟨d', hd', hr⟩

theorem endures_within {text : String} (h : c.Endures I d p fun r => Q (r.mapError (.wrapped text))) :
    c.Endures I d (within text p) Q := fun host hh => Proc.meets_mapError.mpr (h host hh)

theorem endures_ensure {q : Prop} [Decidable q] {e : Fault} {f : Unit → NodeOp Api β}
    (hok : q → c.Endures I d (f ()) Q₂) (herror : ¬q → Q₂ (.error e) d) : c.Endures I d (.ensure q e >>= f) Q₂ := by
  unfold Proc.ensure
  split
  · exact hok ‹q›
  · exact endures_fail (herror ‹¬q›)

theorem endures_steady (hp : c.Steady d p) (hI : I d) (h : ∀ api, Q (value p d api) d) : c.Endures I d p Q := by
  refine fun host hh => (hp host hh).weaken ?_ ?_
  · rintro t u ⟨rfl, hdt⟩
    exact ⟨⟨d, hdt, hI⟩, fun _ _ _ => rfl⟩
  · rintro r t ⟨hr, hdt⟩
    exact ⟨d, hdt, hr host.api ▸ h host.api⟩

theorem endures_look {a : α} (hp : c.Steady d p) (hI : I d) (hv : ∀ api, value p d api = .ok a)
    (h : c.Endures I d (f a) Q₂) : c.Endures I d (p >>= f) Q₂ :=
  endures_bind (endures_steady hp hI fun api => by rw [hv api]; exact h)

theorem endures_look_cases (hp : c.Steady d p) (hI : I d) (hok : ∀ a api, value p d api = .ok a → c.Endures I d (f a) Q₂)
    (herror : ∀ e, Q₂ (.error e) d) : c.Endures I d (p >>= f) Q₂ := by
  refine endures_bind (endures_steady hp hI fun api => ?_)
  cases hv : value p d api with
  | ok a => exact hok a api hv
  | error e => exact herror e

theorem endures_attempt {f : Except Fault α → NodeOp Api β} (hp : c.Steady d p) (hI : I d)
    (h : ∀ api, c.Endures I d (f (value p d api)) Q₂) : c.Endures I d (p.attempt >>= f) Q₂ :=
  endures_bind (endures_steady hp.attempt hI fun api => by rw [value_attempt]; exact h api)

theorem endures_consult {authority : Api → Except Fault Unit} {Q : Except Fault Unit → Disk → Prop} (hI : I d)
    (h : ∀ api, Q (authority api) d) : c.Endures I d (consult authority) Q := by
  refine fun host hh => Proc.meets_read.mpr fun t ht => ?_
  have hdt := hh.trans ht
  exact ⟨⟨⟨d, hdt, hI⟩, fun _ _ _ => rfl⟩, d, hdt, h t.api⟩

theorem endures_asked {authority : Api → Except Fault Unit} {f : Unit → NodeOp Api β} (hI : I d)
    (hok : c.Endures I d (f ()) Q₂) (herror : ∀ e, Q₂ (.error e) d) : c.Endures I d (consult authority >>= f) Q₂ := by
  refine endures_bind (endures_consult hI fun api => ?_)
  cases authority api with
  | ok _ => exact hok
  | error e => exact herror e

theorem endures_granted {authority : Api → Except Fault Unit} {f : Unit → NodeOp Api β} (hI : I d)
    (hgrants : ∀ api, authority api = .ok ()) (h : c.Endures I d (f ()) Q₂) : c.Endures I d (consult authority >>= f) Q₂ :=
  endures_bind (endures_consult hI fun api => by rw [hgrants]; exact h)

theorem endures_change {f : Disk → Except Fault (α × Disk)} (hI : I d)
    (h : ∀ e, LeftAlone c.target c.operationID d e → match f e with
      | .ok (a, e') => (∃ d', LeftAlone c.target c.operationID d' e' ∧ I d' ∧ Q (.ok a) d') ∧
        ∀ area name, ¬CopyPath c.target (area, name) → e'.find area name = e.find area name
      | .error er => Q (.error er) d) : c.Endures I d (change f : NodeOp Api α) Q := by
  refine fun host hh => Proc.meets_atomic.mpr fun t ht => ?_
  have hdt := hh.trans ht
  have hchange := h t.disk hdt
  cases hf : f t.disk with
  | ok v =>
    simp only [hf] at hchange
    obtain ⟨⟨d', hd', hI', hq⟩, hframe⟩ := hchange
    exact ⟨⟨⟨d', hd', hI'⟩, hframe⟩, d', hd', hq⟩
  | error er =>
    simp only [hf] at hchange
    exact ⟨⟨⟨d, hdt, hI⟩, fun _ _ _ => rfl⟩, d, hdt, hchange⟩

theorem endures_ensureMarker {m : MarkerName} {v : Marker} {Q : Except Fault Unit → Disk → Prop} (hI : I d)
    (hm : m ∈ reclaimMarkers c.target c.operationID) (hnone : d.marker m = none) (hI' : I (d.putMarker m v))
    (h : Q (.ok ()) (d.putMarker m v)) : c.Endures I d (ensureMarker m v : NodeOp Api Unit) Q := by
  refine endures_change hI fun e he => ?_
  simp only [(he.marker hm).trans hnone]
  exact ⟨⟨_, he.putMarker, hI', h⟩, fun _ _ _ => rfl⟩

theorem endures_removeMarker {m : MarkerName} {v : Marker} {Q : Except Fault Unit → Disk → Prop} (hI : I d)
    (hmem : m ∈ reclaimMarkers c.target c.operationID) (hm : d.marker m = some v ∨ d.marker m = none)
    (h : ∀ d', d.SameBut m d' → d'.marker m = none → I d' ∧ Q (.ok ()) d') :
    c.Endures I d (removeMarker m v : NodeOp Api Unit) Q := by
  refine endures_change hI fun e he => ?_
  rcases hm with hm | hm
  · simp only [(he.marker hmem).trans hm, if_true]
    exact ⟨⟨_, he.eraseMarker, h _ .eraseMarker Disk.marker_eraseMarker_self⟩, fun _ _ _ => rfl⟩
  · simp only [(he.marker hmem).trans hm]
    exact ⟨⟨d, he, h d (.refl d) hm⟩, fun _ _ _ => trivial⟩

end Rules

end ShiftPV

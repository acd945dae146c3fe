import Mathlib
import ShiftPV.LockedPool
import ShiftPV.Theorems.DirectoryFlow

/-! What a copy receipt attests. A copy is complete once its callback has returned and a receipt names the inode that it
    filled. -/

namespace ShiftPV
open NodeOp Setting

variable {Api α β : Type}

/-! ### The parts of a copy -/

def recordCopy (identity : CopyIdentity) (operationID : String) (authority : Api → Except Fault Unit) : NodeOp Api Unit := do
  consult authority
  let placed ← (readPlacement identity.copyID).mapError (.joined · .identity)
  (verifyIncoming identity).mapError fun _ => .identity
  ensureMarker (.copyReceipt operationID) (.transfer { operationID, identity, id := placed.id })
  consult authority

/-- A copy up to there; the answer says whether a receipt stood in for the callback. -/
def fillCopy (identity : CopyIdentity) (operationID : String) (fresh : LiveID) (population : Population)
    (authority : Api → Except Fault Unit) : NodeOp Api Bool := do
  .ensure (identity.role = .incoming ∧ validIdentityToken operationID ∧ identity.valid) .identity
  let pool := { installationID := identity.installationID, poolUID := identity.poolUID }
  consult authority
  openStore pool
  acquire pool identity.volumeID
  consult authority
  ensureIncoming identity fresh
  match ← ifExists (readTransferReceipt (.copyReceipt operationID)) with
  | some receipt =>
    .ensure (receipt.operationID = operationID ∧ receipt.identity = identity) .identity
    verifyIncoming identity
    return true
  | none =>
    populate identity.copyID population
    return false

def finishCopy (identity : CopyIdentity) (operationID : String) (authority : Api → Except Fault Unit) : Bool → NodeOp Api Unit
  | true => pure ()
  | false => recordCopy identity operationID authority

variable {identity : CopyIdentity} {operationID : String} {fresh : LiveID} {population : Population}
  {authority : Api → Except Fault Unit}

theorem populateIncoming_eq : populateIncoming identity operationID fresh population authority =
    fillCopy identity operationID fresh population authority >>= finishCopy identity operationID authority := by
  have hmatch (found : Option TransferReceipt) : (match found with
      | some receipt => do
        .ensure (receipt.operationID = operationID ∧ receipt.identity = identity) .identity
        verifyIncoming identity
      | none => do
        populate identity.copyID population
        recordCopy identity operationID authority : NodeOp Api Unit) =
      (match found with
        | some receipt => do
          .ensure (receipt.operationID = operationID ∧ receipt.identity = identity) .identity
          verifyIncoming identity
          return true
        | none => do
          populate identity.copyID population
          return false : NodeOp Api Bool) >>= finishCopy identity operationID authority := by
    cases found with
    | some receipt =>
      simp only [Proc.bind_assoc]
      exact congrArg (_ >>= ·) (funext fun _ => (Proc.bind_pure (verifyIncoming identity)).symm)
    | none =>
      simp only [Proc.bind_assoc]
      rfl
  simp only [fillCopy, Proc.bind_assoc, ← hmatch]
  rfl

/-! ### Where receipts come from -/

/-- The callback of an operation has just returned without an error, on the directory `id`. -/
def LockedPool.Filled (pool : LockedPool Api) (identity : CopyIdentity) (operationID : String) (id : LiveID) : Prop :=
  ∃ fresh population authority, pool.running = some (.populateIncoming identity operationID fresh population authority,
    recordCopy identity operationID authority) ∧ pool.host.disk.idAt .incoming identity.copyID = some id

/-- Every copy receipt names an inode that was filled for it (`filled`), and the placement of the copy names the same one. -/
structure Attested (filled : CopyIdentity → String → LiveID → Prop) (d : Disk) : Prop where
  filled : ∀ {operationID receipt}, d.marker (.copyReceipt operationID) = some (.transfer receipt) →
    receipt.identity.role = .incoming ∧ ∃ id : LiveID, receipt.id = id.val ∧ filled receipt.identity operationID id
  placed : ∀ {operationID receipt record}, d.marker (.copyReceipt operationID) = some (.transfer receipt) →
    d.marker (.placement receipt.identity.copyID) = some (.placement record) → record.identity = receipt.identity →
    record.id = receipt.id

def Disk.Unmoved (d : Disk) (identity : CopyIdentity) : Prop :=
  ∀ {operationID receipt}, d.marker (.copyReceipt operationID) = some (.transfer receipt) → receipt.identity = identity →
    d.marker (.placement identity.copyID) ≠ none

section Steps

variable {filled filled' : CopyIdentity → String → LiveID → Prop} {d d' : Disk}

theorem Attested.mono (h : Attested filled d) (hf : ∀ {identity operationID id}, filled identity operationID id →
    filled' identity operationID id) : Attested filled' d where
  filled hreceipt := by
    obtain ⟨hrole, id, hid, hfilled⟩ := h.filled hreceipt
    exact ⟨hrole, id, hid, hf hfilled⟩
  placed := h.placed

/-- A step that writes no copy receipt and no placement of an incoming copy. -/
structure Spares (d d' : Disk) : Prop where
  receipts : ∀ operationID, d'.marker (.copyReceipt operationID) = d.marker (.copyReceipt operationID)
  placements : ∀ {copyID record}, d'.marker (.placement copyID) = some (.placement record) →
    d.marker (.placement copyID) = some (.placement record) ∨ record.identity.role = .serving

theorem Spares.refl (d : Disk) : Spares d d := ⟨fun _ => rfl, .inl⟩

theorem Spares.of_markers (h : ∀ m, d'.marker m = d.marker m) : Spares d d' :=
  ⟨fun _ => h _, fun hplacement => .inl (h _ ▸ hplacement)⟩

theorem Attested.spares (h : Attested filled d) (hs : Spares d d') : Attested filled d' where
  filled hreceipt := h.filled (hs.receipts _ ▸ hreceipt)
  placed {operationID receipt record} hreceipt hplacement hsame := by
    rw [hs.receipts] at hreceipt
    rcases hs.placements hplacement with hplacement | hserving
    · exact h.placed hreceipt hplacement hsame
    · -- the copy of a receipt is an incoming one
      rw [hsame, (h.filled hreceipt).1] at hserving
      exact absurd hserving (by decide)

/-- A step that writes no copy receipt, and places only the copy `identity`, where it has no placement. -/
structure Places (identity : CopyIdentity) (d d' : Disk) : Prop where
  receipts : ∀ operationID, d'.marker (.copyReceipt operationID) = d.marker (.copyReceipt operationID)
  placements : ∀ copyID, d'.marker (.placement copyID) = d.marker (.placement copyID) ∨
    (copyID = identity.copyID ∧ d.marker (.placement copyID) = none ∧
      ∃ id, d'.marker (.placement copyID) = some (.placement { identity, id }))

theorem Places.of_markers (h : ∀ m, d'.marker m = d.marker m) : Places identity d d' := ⟨fun _ => h _, fun _ => .inl (h _)⟩

theorem Attested.places (h : Attested filled d) (hunmoved : d.Unmoved identity) (hs : Places identity d d') :
    Attested filled d' ∧ d'.Unmoved identity := by
  refine ⟨⟨fun hreceipt => h.filled (hs.receipts _ ▸ hreceipt), fun {operationID receipt record} hreceipt hplacement hsame => ?_⟩,
    fun {operationID receipt} hreceipt hsame => ?_⟩
  · rw [hs.receipts] at hreceipt
    rcases hs.placements receipt.identity.copyID with hkept | ⟨hcopy, hnone, id, hnew⟩
    · exact h.placed hreceipt (hkept ▸ hplacement) hsame
    · -- a copy that is placed now had no receipt
      rw [hnew] at hplacement
      obtain rfl : { identity, id } = record := by simpa using hplacement
      exact absurd hnone (hcopy ▸ hunmoved hreceipt hsame.symm)
  · rw [hs.receipts] at hreceipt
    rcases hs.placements identity.copyID with hkept | ⟨-, -, id, hnew⟩
    · exact hkept ▸ hunmoved hreceipt hsame
    · simp [hnew]

theorem Attested.record {id : LiveID} (h : Attested filled d) (hrole : identity.role = .incoming)
    (hplacement : d.marker (.placement identity.copyID) = some (.placement { identity, id := id.val }))
    (hfilled : filled identity operationID id) (hsame : d.SameBut (.copyReceipt operationID) d')
    (hmarker : d'.marker (.copyReceipt operationID) = some (.transfer { operationID, identity, id := id.val })) :
    Attested filled d' := by
  refine ⟨fun {operationID' receipt} hreceipt => ?_, fun {operationID' receipt record} hreceipt hrecord hidentity => ?_⟩
  · by_cases hop : operationID' = operationID
    · subst hop
      obtain rfl : { operationID := operationID', identity, id := id.val } = receipt := by simpa [hmarker] using hreceipt
      exact ⟨hrole, id, rfl, hfilled⟩
    · rw [hsame.marker (by simpa using hop)] at hreceipt
      exact h.filled hreceipt
  · rw [hsame.marker (by simp)] at hrecord
    by_cases hop : operationID' = operationID
    · subst hop
      obtain rfl : { operationID := operationID', identity, id := id.val } = receipt := by simpa [hmarker] using hreceipt
      obtain rfl : { identity, id := id.val } = record := by simpa [hplacement] using hrecord
      rfl
    · rw [hsame.marker (by simpa using hop)] at hreceipt
      exact h.placed hreceipt hrecord hidentity

end Steps

/-! ### What the operations write -/

def sparePermits : Permits where
  marks m v := match m with
    | .copyReceipt _ => False
    | .placement _ => ∃ record, v = .placement record ∧ record.identity.role = .serving
    | _ => True
  unmarks m := match m with
    | .copyReceipt _ => False
    | _ => True
  moves _ _ := True
  fills _ := True
  removes _ := True

theorem spares_admits : Admits (fun h t : Host Api => Spares h.disk t.disk) sparePermits := by
  have hlook : ∀ h : Host Api, Spares h.disk h.disk := fun _ => .refl _
  exact {
    look := hlook
    area := openOrCreateDirectory_does hlook fun _ => .of_markers fun _ => Disk.marker_makeArea
    mark := fun {m v} hm => ensureMarker_does hlook fun {h} _ => by
      refine ⟨fun operationID => ?_, fun {copyID record} hplacement => ?_⟩
      · rw [Disk.marker_putMarker, if_neg]
        rintro rfl
        exact hm
      · rw [Disk.marker_putMarker] at hplacement
        split at hplacement
        · rename_i hsame
          subst hsame
          obtain ⟨record', rfl, hrole⟩ := hm
          obtain rfl : record' = record := by simpa using hplacement
          exact .inr hrole
        · exact .inl hplacement
    unmark := fun {m v} hm => removeMarker_does hlook fun h => by
      refine ⟨fun operationID => ?_, fun {copyID record} hplacement => ?_⟩
      · rw [Disk.marker_eraseMarker, if_neg]
        rintro rfl
        exact hm
      · rw [Disk.marker_eraseMarker] at hplacement
        split at hplacement
        · simp at hplacement
        · exact .inl hplacement
    make := makeDirectory_does hlook fun _ _ => .of_markers fun _ => rfl
    fill := fun _ => .of_markers fun _ => Disk.marker_setContents
    move := fun _ => renameDirectory_does hlook fun _ _ => .of_markers fun _ => rfl
    remove := fun _ => removeDirectory_does hlook fun _ => .of_markers fun _ => rfl }

def placePermits (identity : CopyIdentity) : Permits where
  marks m v := match m with
    | .copyReceipt _ => False
    | .placement copyID => copyID = identity.copyID ∧ ∃ id, v = .placement { identity, id }
    | _ => True
  unmarks _ := False
  moves _ _ := True
  fills _ := True
  removes _ := True

theorem places_admits : Admits (fun h t : Host Api => Places identity h.disk t.disk) (placePermits identity) := by
  have hlook : ∀ h : Host Api, Places identity h.disk h.disk := fun _ => .of_markers fun _ => rfl
  exact {
    look := hlook
    area := openOrCreateDirectory_does hlook fun _ => .of_markers fun _ => Disk.marker_makeArea
    mark := fun {m v} hm => ensureMarker_does hlook fun {h} hnone => by
      refine ⟨fun operationID => ?_, fun copyID => ?_⟩
      · rw [Disk.marker_putMarker, if_neg]
        rintro rfl
        exact hm
      · rw [Disk.marker_putMarker]
        split
        · rename_i hsame
          subst hsame
          obtain ⟨rfl, id, rfl⟩ := hm
          exact .inr ⟨rfl, hnone, id, rfl⟩
        · exact .inl rfl
    unmark := False.elim
    make := makeDirectory_does hlook fun _ _ => .of_markers fun _ => rfl
    fill := fun _ => .of_markers fun _ => Disk.marker_setContents
    move := fun _ => renameDirectory_does hlook fun _ _ => .of_markers fun _ => rfl
    remove := fun _ => removeDirectory_does hlook fun _ => .of_markers fun _ => rfl }

theorem PoolOperation.program_spares {receiptDigest : Receipt → String} (operation : PoolOperation Api)
    (h : ∀ identity operationID fresh population authority,
      operation ≠ .populateIncoming identity operationID fresh population authority) :
    (operation.program receiptDigest).Does fun h t => Spares h.disk t.disk := by
  cases operation with
  | populateIncoming => exact absurd rfl (h _ _ _ _ _)
  | prepareServing =>
    exact spares_admits.prepareServing trivial (fun hrole => ⟨trivial, fun _ => ⟨_, rfl, hrole⟩⟩) trivial
  | promoteIncoming =>
    exact spares_admits.promoteIncoming trivial trivial (fun _ => trivial)
      (fun hrole => ⟨trivial, fun _ => ⟨_, rfl, hrole⟩⟩) (fun _ => trivial) trivial
  | cancelCreation =>
    refine Proc.Does.bind ?_ fun _ => .pure
    exact spares_admits.cancelCreation trivial (fun _ => trivial) (fun _ => trivial) trivial trivial trivial trivial trivial trivial
  | reclaimWithResume =>
    refine Proc.Does.bind ?_ fun _ => .pure
    exact spares_admits.reclaimWithResume (fun _ => trivial) (fun _ => trivial) trivial trivial (fun _ _ => trivial) trivial trivial

/-! ### One copy -/

def diskSetting (inv : Disk → Prop) : Setting Api where
  later _ _ := True
  refl _ := trivial
  trans _ _ := trivial
  inv h := inv h.disk
  stable _ h := h

theorem diskSetting_lasting {inv : Disk → Prop} : (diskSetting inv : Setting Api).Lasting fun _ => True := fun _ _ => trivial

theorem keeps_does_bind {S : Setting Api} {p : NodeOp Api α} {G : Host Api → Host Api → Prop} {d : Disk} {f : α → NodeOp Api β}
    {Q : Except Fault β → Disk → Prop} (hp : p.Does G) (hG : ∀ {h t}, G h t → S.inv h → S.inv t)
    (hf : ∀ a d', S.Keeps (fun _ => True) d' (f a) Q) (herror : ∀ e d', Q (.error e) d') :
    S.Keeps (fun _ => True) d (p >>= f) Q := by
  refine keeps_bind ((keeps_does hp hG).mono fun r d' _ => ?_)
  cases r with
  | ok a => exact hf a d'
  | error e => exact herror e d'

theorem verifyIncoming_ok {d : Disk} {api : Api} {u : Unit} :
    value (verifyIncoming identity : NodeOp Api Unit) d api = .ok u ↔
      identity.role = .incoming ∧ d.marker (.copy identity.copyID) = some (.copy identity) ∧
        ∃ id : LiveID, d.marker (.placement identity.copyID) = some (.placement { identity, id := id.val }) ∧
          d.idAt .incoming identity.copyID = some id := by
  simp only [verifyIncoming, value_bind_ok Proc.Views.ensure, value_bind_ok checkMarker_views, value_bind_ok readPlacement_views,
    value_bind_ok openArea_views, value_ensure_ok, checkMarker_ok, readPlacement_ok, openArea_ok, verifyPath_ok, exists_const]
  constructor
  · rintro ⟨hrole, hcopy, ⟨_, _⟩, hplacement, -, rfl, id, hid, rfl⟩
    exact ⟨hrole, hcopy, id, hplacement, hid⟩
  · rintro ⟨hrole, hcopy, id, hplacement, hid⟩
    exact ⟨hrole, hcopy, _, hplacement, Disk.areas_of_idAt hid, rfl, id, hid, rfl⟩

section Keeps

variable {filled : CopyIdentity → String → LiveID → Prop} {d : Disk}

/-- The incoming directory is the one that the placement of the copy and the receipt of the operation name. -/
def Completed (identity : CopyIdentity) (operationID : String) (d : Disk) : Prop :=
  ∃ id : LiveID, d.idAt .incoming identity.copyID = some id ∧
    d.marker (.copyReceipt operationID) = some (.transfer { operationID, identity, id := id.val })

/-- A receipt that stands in for the callback names the directory that is there. -/
theorem fillCopy_keeps : (diskSetting fun d => Attested filled d ∧ d.Unmoved identity : Setting Api).Keeps (fun _ => True) d
    (fillCopy identity operationID fresh population authority)
    fun r d => r = .ok true → Attested filled d → Completed identity operationID d := by
  have hplaces : ∀ {h t : Host Api}, Places identity h.disk t.disk → Attested filled h.disk ∧ h.disk.Unmoved identity →
      Attested filled t.disk ∧ t.disk.Unmoved identity := fun hstep hi => hi.1.places hi.2 hstep
  refine keeps_does_bind Proc.Does.ensure hplaces (fun _ d => ?_) fun _ _ h => nomatch h
  refine keeps_does_bind places_admits.consult hplaces (fun _ d => ?_) fun _ _ h => nomatch h
  refine keeps_does_bind (places_admits.openStore trivial) hplaces (fun _ d => ?_) fun _ _ h => nomatch h
  refine keeps_does_bind (places_admits.views acquire_views) hplaces (fun _ d => ?_) fun _ _ h => nomatch h
  refine keeps_does_bind places_admits.consult hplaces (fun _ d => ?_) fun _ _ h => nomatch h
  refine keeps_does_bind (places_admits.ensureIncoming trivial fun id => ⟨rfl, id, rfl⟩) hplaces (fun _ d => ?_) fun _ _ h => nomatch h
  refine keeps_view_cases (ifExists_views readTransferReceipt_views) diskSetting_lasting (fun found api hfound => ?_)
    fun _ h => nomatch h
  cases found with
  | none => exact keeps_does_bind (places_admits.populate trivial) hplaces (fun _ d => keeps_pure (by simp)) fun _ _ h => nomatch h
  | some receipt =>
    refine keeps_bind (keeps_ensure (fun hsame => ?_) fun _ h => nomatch h)
    refine keeps_view_cases verifyIncoming_views diskSetting_lasting (fun _ api hverified => ?_) fun _ h => nomatch h
    refine keeps_pure fun _ hattested => ?_
    have hreceipt := readTransferReceipt_ok.mp (value_ifExists_some.mp hfound)
    obtain ⟨-, -, id, hplacement, hid⟩ := verifyIncoming_ok.mp hverified
    obtain ⟨rfl, rfl⟩ := hsame
    have hinode : id.val = receipt.id := hattested.placed hreceipt hplacement rfl
    exact ⟨id, hid, by rw [hreceipt, hinode]⟩

/-- After the callback, the receipt names the directory that was filled. -/
theorem recordCopy_keeps :
    (diskSetting fun d => Attested filled d ∧ ∀ id, d.idAt .incoming identity.copyID = some id → filled identity operationID id :
        Setting Api).Keeps (fun _ => True) d
      (recordCopy identity operationID authority) fun r d => r = .ok () → Completed identity operationID d := by
  refine keeps_bind (keeps_asked diskSetting_lasting fun api => ?_)
  cases authority api with
  | error e => exact fun h => nomatch h
  | ok _ =>
    refine keeps_view_cases readPlacement_views.mapError diskSetting_lasting (fun placed api hplaced => ?_) fun _ h => nomatch h
    refine keeps_view_cases verifyIncoming_views.mapError diskSetting_lasting (fun _ api hverified => ?_) fun _ h => nomatch h
    rw [value_mapError_ok, readPlacement_ok] at hplaced
    obtain ⟨hrole, -, id, hplacement, hid⟩ := verifyIncoming_ok.mp (value_mapError_ok.mp hverified)
    obtain rfl : { identity, id := id.val } = placed := by simpa [hplacement] using hplaced
    refine keeps_bind (keeps_ensureMarker_any diskSetting_lasting (fun d' hsame hmarker => ⟨fun api _ hi => ?_, ?_⟩) fun _ h =>
      nomatch h)
    · refine ⟨hi.1.record hrole hplacement (hi.2 id hid) hsame hmarker, fun id' hid' => ?_⟩
      rw [Disk.idAt, hsame.find] at hid'
      exact hi.2 id' hid'
    · refine keeps_asked diskSetting_lasting fun api _ => ⟨id, ?_, hmarker⟩
      rw [Disk.idAt, hsame.find]
      exact hid

end Keeps

/-! ### Runs -/

/-- The rest of a program, under an API that moves on: the disk keeps `inv`, and the end is in `Q`. -/
def Left (inv : Disk → Prop) (p : NodeOp Api α) (Q : Except Fault α → Disk → Prop) (h : Host Api) : Prop :=
  p.Meets (fun h t => h.disk = t.disk) (fun _ t => inv t.disk) (fun r t => Q r t.disk) h

section Left

variable {inv inv' : Disk → Prop} {p : NodeOp Api α} {Q : Except Fault α → Disk → Prop} {h t : Host Api}

theorem Left.of_keeps {Q' : Except Fault α → Disk → Prop} (hk : (diskSetting inv).Keeps (fun _ => True) h.disk p Q)
    (hi : inv h.disk) (hend : ∀ r d, Q r d → inv d → Q' r d) : Left inv p Q' h := by
  have hcalm : ∀ {s t : Host Api}, s.disk = t.disk → (diskSetting inv).rely s t := fun hsame => ⟨hsame, trivial⟩
  exact ((hk h.api trivial hi).calmer hcalm).mono fun r t ht => hend r t.disk ht.1 ht.2.2

theorem Left.step {act : Host Api → Host Api} {next : Host Api → NodeOp Api α} (hl : Left inv (.step act next) Q h) :
    inv (act h).disk ∧ Left inv (next h) Q (act h) := hl h rfl

theorem Left.surroundings (hl : Left inv p Q h) (hsame : h.disk = t.disk) : Left inv p Q t :=
  hl.disturbed (fun hst htu => hst.trans htu) (fun hq hsame => hsame ▸ hq) hsame

theorem Left.mono (hl : Left inv p Q h) (hinv : ∀ d, inv d → inv' d) : Left inv' p Q h :=
  hl.weaken (fun hg => hinv _ hg) fun _ _ hq => hq

end Left

/-- The callback of the operation has returned on the directory, at some moment of the history. -/
def FilledIn (h : List (LockedPool Api)) (identity : CopyIdentity) (operationID : String) (id : LiveID) : Prop :=
  ∃ pool ∈ h, pool.Filled identity operationID id

theorem FilledIn.later {h : List (LockedPool Api)} {id : LiveID} (hf : FilledIn h identity operationID id) (pool : LockedPool Api) :
    FilledIn (pool :: h) identity operationID id := by
  obtain ⟨earlier, hmem, hfilled⟩ := hf
  exact ⟨earlier, List.mem_cons_of_mem _ hmem, hfilled⟩

def CopyFilling (h : List (LockedPool Api)) (identity : CopyIdentity) (d : Disk) : Prop :=
  Attested (FilledIn h) d ∧ d.Unmoved identity

def CopyRecording (h : List (LockedPool Api)) (identity : CopyIdentity) (operationID : String) (d : Disk) : Prop :=
  Attested (FilledIn h) d ∧ ∀ id, d.idAt .incoming identity.copyID = some id → FilledIn h identity operationID id

inductive Underway (h : List (LockedPool Api)) (pool : LockedPool Api) : Prop where
  | idle (hrunning : pool.running = none)
  | filling {identity : CopyIdentity} {operationID : String} {fresh : LiveID} {population : Population}
      {authority : Api → Except Fault Unit} {q : NodeOp Api Bool}
      (hrunning : pool.running = some (.populateIncoming identity operationID fresh population authority,
        q >>= finishCopy identity operationID authority))
      (hleft : Left (CopyFilling h identity) q (fun r d => r = .ok true → Completed identity operationID d) pool.host)
  | recording {identity : CopyIdentity} {operationID : String} {fresh : LiveID} {population : Population}
      {authority : Api → Except Fault Unit} {p : NodeOp Api Unit}
      (hrunning : pool.running = some (.populateIncoming identity operationID fresh population authority, p))
      (hleft : Left (CopyRecording h identity operationID) p (fun r d => r = .ok () → Completed identity operationID d) pool.host)
  | other {operation : PoolOperation Api} {p : NodeOp Api Unit} (hrunning : pool.running = some (operation, p))
      (hother : ∀ identity operationID fresh population authority,
        operation ≠ .populateIncoming identity operationID fresh population authority)
      (hspares : p.Does fun h t => Spares h.disk t.disk)

/-- Every receipt on the disk is accounted for, and what runs keeps it so. -/
structure CopiesSound (h : List (LockedPool Api)) (pool : LockedPool Api) : Prop where
  attested : Attested (FilledIn h) pool.host.disk
  underway : Underway h pool

section Runs

variable {pool pool' : LockedPool Api} {past : List (LockedPool Api)} {receiptDigest : Receipt → String}

theorem CopyFilling.later {h : List (LockedPool Api)} {d : Disk} (hf : CopyFilling h identity d) : CopyFilling (pool :: h) identity d :=
  ⟨hf.1.mono fun hfilled => hfilled.later pool, hf.2⟩

theorem CopyRecording.later {h : List (LockedPool Api)} {d : Disk} (hr : CopyRecording h identity operationID d) :
    CopyRecording (pool :: h) identity operationID d :=
  ⟨hr.1.mono fun hfilled => hfilled.later pool, fun id hid => (hr.2 id hid).later pool⟩

theorem CopiesSound.surroundings (hs : CopiesSound (pool :: past) pool) (hdisk : pool.host.disk = pool'.host.disk)
    (hrunning : pool'.running = pool.running) : CopiesSound (pool' :: pool :: past) pool' := by
  refine ⟨hdisk ▸ hs.attested.mono fun hfilled => hfilled.later pool', ?_⟩
  cases hs.underway with
  | idle hidle => exact .idle (hrunning.trans hidle)
  | filling hr hleft => exact .filling (hrunning.trans hr) ((hleft.surroundings hdisk).mono fun _ => .later)
  | recording hr hleft => exact .recording (hrunning.trans hr) ((hleft.surroundings hdisk).mono fun _ => .later)
  | other hr hother hspares => exact .other (hrunning.trans hr) hother hspares

theorem attested_of_marker {d : Disk} {receipt : TransferReceipt}
    (h : d.marker (.copyReceipt operationID) = some (.transfer receipt)) : d.attested receipt.identity := by
  have hmem := AList.mem_lookup_iff.mp h
  exact List.any_eq_true.mpr ⟨_, hmem, by simp⟩

theorem CopiesSound.start (hs : CopiesSound (pool :: past) pool) (operation : PoolOperation Api)
    (hallowed : (LockedStep.start operation).populatesUnmoved pool.host.disk) :
    CopiesSound ({ pool with running := some (operation, operation.program receiptDigest) } :: pool :: past)
      { pool with running := some (operation, operation.program receiptDigest) } := by
  have hattested := hs.attested.mono fun hfilled =>
    hfilled.later { pool with running := some (operation, operation.program receiptDigest) }
  refine ⟨hattested, ?_⟩
  cases operation with
  | populateIncoming identity operationID fresh population authority =>
    have hunmoved : pool.host.disk.Unmoved identity := by
      intro _ receipt hreceipt hsame hnone
      have hnamed := hsame ▸ attested_of_marker hreceipt
      simp [LockedStep.populatesUnmoved, hnamed, hnone] at hallowed
    refine .filling (congrArg some (Prod.ext rfl populateIncoming_eq)) ?_
    exact .of_keeps fillCopy_keeps ⟨hattested, hunmoved⟩ fun r d hend hi hr => hend hr hi.1
  | _ => exact .other rfl (by simp) (PoolOperation.program_spares _ (by simp))

theorem CopiesSound.advance (hs : CopiesSound (pool :: past) pool) {operation : PoolOperation Api} {act : Host Api → Host Api}
    {next : Host Api → NodeOp Api Unit} (hrunning : pool.running = some (operation, .step act next))
    (hpool' : pool' = { host := act pool.host, running := some (operation, next pool.host) }) :
    CopiesSound (pool' :: pool :: past) pool' := by
  subst hpool'
  cases hs.underway with
  | idle hidle => simp [hidle] at hrunning
  | @filling identity operationID fresh population authority q hr hleft =>
    rw [hr] at hrunning
    obtain ⟨rfl, hprogram⟩ := Prod.mk.inj (Option.some.inj hrunning)
    cases q with
    | step act' next' =>
      obtain ⟨rfl, rfl⟩ := Proc.step.inj hprogram
      obtain ⟨hi, hleft⟩ := hleft.step
      exact ⟨hi.later.1, .filling rfl (hleft.mono fun _ => .later)⟩
    | done r =>
      rcases r with e | _ | _
      · cases hprogram
      · -- the callback has returned: here the copy is filled
        have hfilled : CopyRecording (pool :: past) identity operationID pool.host.disk :=
          ⟨hs.attested, fun id hid => ⟨pool, List.mem_cons_self, fresh, population, authority, hr, hid⟩⟩
        have hrecord : Left (CopyRecording (pool :: past) identity operationID) (recordCopy identity operationID authority)
            (fun r d => r = .ok () → Completed identity operationID d) pool.host :=
          .of_keeps recordCopy_keeps hfilled fun _ _ hend _ => hend
        have hstart : recordCopy identity operationID authority = .step act next := hprogram
        rw [hstart] at hrecord
        obtain ⟨hi, hleft⟩ := hrecord.step
        exact ⟨hi.later.1, .recording rfl (hleft.mono fun _ => .later)⟩
      · cases hprogram
  | recording hr hleft =>
    rw [hr] at hrunning
    obtain ⟨rfl, rfl⟩ := Prod.mk.inj (Option.some.inj hrunning)
    obtain ⟨hi, hleft⟩ := hleft.step
    exact ⟨hi.later.1, .recording rfl (hleft.mono fun _ => .later)⟩
  | other hr hother hspares =>
    rw [hr] at hrunning
    obtain ⟨rfl, rfl⟩ := Prod.mk.inj (Option.some.inj hrunning)
    obtain ⟨hstep, hspares⟩ := hspares pool.host
    exact ⟨(hs.attested.spares hstep).mono fun hfilled => hfilled.later _, .other rfl hother hspares⟩

theorem CopiesSound.leave (hs : CopiesSound (pool :: past) pool) :
    CopiesSound ({ pool with running := none } :: pool :: past) { pool with running := none } :=
  ⟨hs.attested.mono fun hfilled => hfilled.later _, .idle rfl⟩

/-- The runs in which no copy with a receipt is populated again after its placement was removed. -/
abbrev UnmovedRun (receiptDigest : Receipt → String) : List (LockedPool Api) → Prop :=
  Run LockedPool.Initial (Run.onHead fun pool (act : LockedStep Api) pool' =>
    pool.step receiptDigest act = .ok pool' ∧ act.populatesUnmoved pool.host.disk)

theorem UnmovedRun.sound (hr : UnmovedRun receiptDigest (pool :: past)) : CopiesSound (pool :: past) pool := by
  suffices h : ∀ {h : List (LockedPool Api)}, UnmovedRun receiptDigest h → ∀ {pool past}, h = pool :: past →
      CopiesSound (pool :: past) pool from h hr rfl
  intro h hr
  induction hr with
  | start hinit =>
    rintro _ _ ⟨rfl, rfl⟩
    exact ⟨⟨by simp [hinit.uncopied], by simp [hinit.uncopied]⟩, .idle hinit.idle⟩
  | @next s t past act hr hstep ih =>
    rintro _ _ ⟨rfl, rfl⟩
    have hs := ih rfl
    obtain ⟨hstep, hallowed⟩ := Run.onHead_cons.mp hstep
    cases act with
    | surroundings api =>
      obtain rfl := Except.ok.inj hstep
      exact hs.surroundings rfl rfl
    | start operation =>
      simp only [LockedPool.step, Check.seq_ok] at hstep
      obtain rfl := Except.ok.inj hstep.2
      exact hs.start operation hallowed
    | advance =>
      simp only [LockedPool.step] at hstep
      split at hstep
      · exact hs.advance ‹_› (Except.ok.inj hstep).symm
      · simp [throw, throwThe, MonadExceptOf.throw] at hstep
    | leave =>
      obtain rfl := Except.ok.inj hstep
      exact hs.leave

def LockedPool.copied (pool : LockedPool Api) (identity : CopyIdentity) (operationID : String) : Bool :=
  match pool.running with
  | some (.populateIncoming identity' operationID' _ _ _, .done (.ok _)) => identity' = identity && operationID' = operationID
  | _ => false

theorem LockedPool.copied_iff : pool.copied identity operationID ↔ ∃ fresh population authority,
    pool.running = some (.populateIncoming identity operationID fresh population authority, .done (.ok ())) := by
  unfold copied
  constructor
  · intro h
    split at h
    · rename_i hrunning
      obtain ⟨rfl, rfl⟩ : _ = identity ∧ _ = operationID := by simpa using h
      exact ⟨_, _, _, hrunning⟩
    · simp at h
  · rintro ⟨fresh, population, authority, hrunning⟩
    simp [hrunning]

/-- Whenever a copy has ended in success, the incoming directory is the inode that a callback of that operation filled, and
    the receipt of the operation names it. -/
theorem completed_copy_filled (hr : UnmovedRun receiptDigest (pool :: past)) (hcopied : pool.copied identity operationID) :
    ∃ id : LiveID, pool.host.disk.idAt .incoming identity.copyID = some id ∧ FilledIn (pool :: past) identity operationID id ∧
      pool.host.disk.marker (.copyReceipt operationID) = some (.transfer { operationID, identity, id := id.val }) := by
  have hs := hr.sound
  obtain ⟨fresh, population, authority, hdone⟩ := LockedPool.copied_iff.mp hcopied
  suffices hcompleted : Completed identity operationID pool.host.disk by
    obtain ⟨id, hid, hreceipt⟩ := hcompleted
    obtain ⟨-, id', hsame, hfilled⟩ := hs.attested.filled hreceipt
    obtain rfl : id = id' := Subtype.ext hsame
    exact ⟨id, hid, hfilled, hreceipt⟩
  cases hs.underway with
  | idle hidle => simp [hidle] at hdone
  | @filling _ _ _ _ _ q hrunning hleft =>
    rw [hrunning] at hdone
    obtain ⟨hsame, hprogram⟩ := Prod.mk.inj (Option.some.inj hdone)
    obtain ⟨rfl, rfl, -⟩ := PoolOperation.populateIncoming.inj hsame
    cases q with
    | step act next => cases hprogram
    | done r =>
      rcases r with e | _ | _
      · cases hprogram
      · cases hprogram
      · exact hleft rfl
  | recording hrunning hleft =>
    rw [hrunning] at hdone
    obtain ⟨hsame, rfl⟩ := Prod.mk.inj (Option.some.inj hdone)
    obtain ⟨rfl, rfl, -⟩ := PoolOperation.populateIncoming.inj hsame
    exact hleft rfl
  | other hrunning hother _ =>
    rw [hrunning] at hdone
    obtain ⟨rfl, -⟩ := Prod.mk.inj (Option.some.inj hdone)
    exact absurd rfl (hother _ _ _ _ _)

end Runs

/-! ### Runs on an empty Pool -/

def emptyPool : LockedPool Unit where
  host := { disk := { areas := fun _ => none, markers := ∅ }, api := () }
  running := none

theorem emptyPool_initial : emptyPool.Initial := ⟨rfl, fun _ => rfl⟩

def filledCopy : CopyIdentity where
  installationID := "install"
  poolName := "pool-b"
  poolUID := "pool-b-uid"
  volumeID := "shiftpv-0123456789abcdef0123456789abcdef"
  volumeUID := "volume-1"
  copyID := "incoming-1"
  nodeName := "node-b"
  role := .incoming

theorem firstInode_known : FileID.known ⟨1, 7⟩ = true := rfl

def firstInode : LiveID := ⟨⟨1, 7⟩, firstInode_known⟩

theorem secondInode_known : FileID.known ⟨1, 8⟩ = true := rfl

def secondInode : LiveID := ⟨⟨1, 8⟩, secondInode_known⟩

def copyScript (fresh : LiveID) (steps : Nat) : List (LockedStep Unit) :=
  .start (.populateIncoming filledCopy "copy-1" fresh { writes := [.file "data" .empty], outcome := .ok () } fun _ => .ok ()) ::
    List.replicate steps .advance

def reclaimScript : List (LockedStep Unit) :=
  .start (.reclaimWithResume filledCopy "cleanup-1" fun _ _ => .ok ()) :: List.replicate 28 .advance

theorem completed_copy_filled_once : ∃ (pool : LockedPool Unit) (past : List (LockedPool Unit)),
    UnmovedRun (fun _ => "") (pool :: past) ∧ pool.copied filledCopy "copy-1" ∧
      ∃ id : LiveID, pool.host.disk.idAt .incoming filledCopy.copyID = some id ∧
        FilledIn (pool :: past) filledCopy "copy-1" id := by
  let history := Run.replay (Run.guarded (fun pool => LockedStep.populatesUnmoved pool.host.disk) (LockedPool.step fun _ => ""))
    emptyPool [] (copyScript firstInode 22)
  have hcopied : history.head?.any (·.copied filledCopy "copy-1") = true := by decide +kernel
  obtain ⟨pool, past, hhistory, hpool⟩ := Run.exists_head hcopied
  have hrun : UnmovedRun (fun _ => "") (pool :: past) :=
    Run.replay_run_of (fun h => (Run.guarded_ok.mp h).symm) (.start emptyPool_initial) hhistory
  obtain ⟨id, hid, hfilled, -⟩ := completed_copy_filled hrun hpool
  exact ⟨pool, past, hrun, hpool, id, hid, hfilled⟩

/-- A copy is completed, reclaimed, and run once more: the new, empty directory passes for the one that the receipt of the
    first run names. -/
theorem reclaimed_copy_replayed : ¬∀ (pool : LockedPool Unit) (past : List (LockedPool Unit)) (identity : CopyIdentity)
    (operationID : String), LockedRun (fun _ => "") (pool :: past) → pool.copied identity operationID →
    ∃ id : LiveID, pool.host.disk.idAt .incoming identity.copyID = some id ∧ FilledIn (pool :: past) identity operationID id ∧
      pool.host.disk.marker (.copyReceipt operationID) = some (.transfer { operationID, identity, id := id.val }) := by
  intro hall
  let history := Run.replay (fun (pool : LockedPool Unit) act => pool.step (fun _ => "") act) emptyPool []
    (copyScript firstInode 22 ++ .leave :: reclaimScript ++ .leave :: copyScript secondInode 17)
  have hcopied : history.head?.any (fun pool => pool.copied filledCopy "copy-1" &&
      (pool.host.disk.idAt .incoming filledCopy.copyID = some secondInode) && (pool.host.disk.marker (.copyReceipt "copy-1") =
        some (.transfer { operationID := "copy-1", identity := filledCopy, id := firstInode.val }))) = true := by
    decide +kernel
  obtain ⟨pool, past, hhistory, hpool⟩ := Run.exists_head hcopied
  simp only [Bool.and_eq_true, decide_eq_true_eq] at hpool
  obtain ⟨⟨hcopied, hid⟩, hreceipt⟩ := hpool
  obtain ⟨id, hid', -, hreceipt'⟩ := hall pool past filledCopy "copy-1"
    (Run.replay_run (.start emptyPool_initial) hhistory) hcopied
  obtain rfl : secondInode = id := by simpa [hid] using hid'
  simp [hreceipt, firstInode, secondInode] at hreceipt'

end ShiftPV

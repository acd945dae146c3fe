import Mathlib.Data.List.AList
import ShiftPV.Identity
import ShiftPV.Lib.Proc

/-! The Pool directory of a node: the three places where copies live and the identity markers beside them. Every
    call into the filesystem is one step of a program; a marker is written under its lock by a rename, in one step. -/

namespace ShiftPV

/-! ### Directories -/

inductive Area where
  | volumes | incoming | retired
  deriving DecidableEq

structure FileID where
  device : Nat
  inode : Nat
  deriving DecidableEq

def FileID.known (id : FileID) : Bool := id.device ≠ 0 && id.inode ≠ 0

abbrev LiveID := { id : FileID // id.known }

inductive Contents where
  | empty
  | file (name : String) (rest : Contents)
  | folder (name : String) (inner rest : Contents)
  deriving DecidableEq

/-- What stands at a name: a directory, or something that cannot be opened as one. -/
inductive Entry where
  | directory (id : LiveID) (contents : Contents)
  | other
  deriving DecidableEq

def Entry.id? : Entry → Option LiveID
  | .directory id _ => some id
  | .other => none

/-! ### Markers -/

structure PoolIdentity where
  installationID : String
  poolUID : String
  deriving DecidableEq

structure Placement where
  identity : CopyIdentity
  id : FileID
  deriving DecidableEq

structure LocalIntent where
  operationID : String
  target : CopyIdentity
  id : FileID
  deriving DecidableEq

structure Receipt where
  operationID : String
  target : CopyIdentity
  id : FileID
  retired : Bool
  purged : Bool
  deriving DecidableEq

structure TransferIntent where
  operationID : String
  incoming : CopyIdentity
  destination : CopyIdentity
  id : FileID
  deriving DecidableEq

structure TransferReceipt where
  operationID : String
  identity : CopyIdentity
  id : FileID
  deriving DecidableEq

/-- The marker files, by what their names are made of. -/
inductive MarkerName where
  | pool
  | copy (copyID : String)
  | placement (copyID : String)
  | cleanup (operationID : String)
  | receipt (operationID : String)
  | copyReceipt (operationID : String)
  | promotion (operationID : String)
  | promotionReceipt (operationID : String)
  deriving DecidableEq

inductive Marker where
  | pool (identity : PoolIdentity)
  | copy (identity : CopyIdentity)
  | placement (record : Placement)
  | cleanup (intent : LocalIntent)
  | receipt (receipt : Receipt)
  | transfer (receipt : TransferReceipt)
  | promotion (intent : TransferIntent)
  /-- Not the canonical text of any of them. -/
  | unreadable
  deriving DecidableEq

/-! ### Disks -/

structure Disk where
  /-- `none` until the directory is made. -/
  areas : Area → Option (AList fun _ : String => Entry)
  markers : AList fun _ : MarkerName => Marker

namespace Disk

variable (d : Disk)

def find (area : Area) (name : String) : Option Entry := (d.areas area).bind (·.lookup name)

def marker (name : MarkerName) : Option Marker := d.markers.lookup name

def idAt (area : Area) (name : String) : Option LiveID := (d.find area name).bind Entry.id?

def contentsAt (area : Area) (name : String) : Contents :=
  match d.find area name with
  | some (.directory _ contents) => contents
  | _ => .empty

def setArea (area : Area) (rows : Option (AList fun _ : String => Entry)) : Disk :=
  { d with areas := fun other => if other = area then rows else d.areas other }

def makeArea (area : Area) : Disk := if (d.areas area).isSome then d else d.setArea area (some ∅)

def put (area : Area) (name : String) (entry : Entry) : Disk :=
  d.setArea area (some (((d.areas area).getD ∅).insert name entry))

def erase (area : Area) (name : String) : Disk := d.setArea area ((d.areas area).map (·.erase name))

def setContents (area : Area) (name : String) (contents : Contents) : Disk :=
  match d.find area name with
  | some (.directory id _) => d.put area name (.directory id contents)
  | _ => d

def putMarker (name : MarkerName) (value : Marker) : Disk := { d with markers := d.markers.insert name value }

def eraseMarker (name : MarkerName) : Disk := { d with markers := d.markers.erase name }

structure SameBut (m : MarkerName) (d d' : Disk) : Prop where
  marker : ∀ {m'}, m' ≠ m → d'.marker m' = d.marker m'
  find : ∀ area name, d'.find area name = d.find area name
  areas : d'.areas = d.areas

def uses (id : LiveID) : Bool :=
  [Area.volumes, .incoming, .retired].any fun area =>
    (d.areas area).any fun rows => rows.entries.any fun row => row.2.id? = some id

variable {d : Disk} {area area' : Area} {name name' : String} {entry : Entry} {m m' : MarkerName} {value : Marker}
  {id : LiveID} {contents : Contents}

@[simp] theorem find_makeArea : (d.makeArea area).find area' name = d.find area' name := by
  unfold makeArea
  split
  · rfl
  · rename_i hnone
    simp only [find, setArea]
    split
    · rename_i hsame
      subst hsame
      cases h : d.areas area' <;> simp_all
    · rfl

@[simp] theorem marker_makeArea : (d.makeArea area).marker m = d.marker m := by
  unfold makeArea
  split <;> rfl

theorem areas_makeArea : ((d.makeArea area).areas area).isSome := by
  unfold makeArea
  split
  · assumption
  · simp [setArea]

theorem areas_makeArea_of (h : (d.areas area').isSome) : ((d.makeArea area).areas area').isSome := by
  unfold makeArea
  split
  · exact h
  · simp only [setArea]
    split <;> simp [h]

theorem find_put : (d.put area name entry).find area' name' =
    if area' = area ∧ name' = name then some entry else d.find area' name' := by
  simp only [find, put, setArea]
  by_cases harea : area' = area
  · subst harea
    by_cases hname : name' = name
    · subst hname
      simp
    · simp only [hname, and_false, if_false, if_true, Option.bind_some, AList.lookup_insert_ne hname]
      cases h : d.areas area' <;> simp
  · simp [harea]

@[simp] theorem find_put_self : (d.put area name entry).find area name = some entry := by simp [find_put]

@[simp] theorem marker_put : (d.put area name entry).marker m = d.marker m := rfl

theorem areas_put (h : (d.areas area').isSome) : ((d.put area name entry).areas area').isSome := by
  simp only [put, setArea]
  split <;> simp [h]

theorem find_erase : (d.erase area name).find area' name' =
    if area' = area ∧ name' = name then none else d.find area' name' := by
  simp only [find, erase, setArea]
  by_cases harea : area' = area
  · subst harea
    by_cases hname : name' = name
    · subst hname
      cases h : d.areas area' <;> simp
    · cases h : d.areas area' <;> simp [hname, AList.lookup_erase_ne hname]
  · simp [harea]

@[simp] theorem find_erase_self : (d.erase area name).find area name = none := by simp [find_erase]

@[simp] theorem marker_erase : (d.erase area name).marker m = d.marker m := rfl

theorem areas_erase (h : (d.areas area').isSome) : ((d.erase area name).areas area').isSome := by
  simp only [erase, setArea]
  split
  · rename_i hsame
    simpa [hsame] using h
  · exact h

theorem marker_putMarker : (d.putMarker m value).marker m' = if m' = m then some value else d.marker m' := by
  by_cases h : m' = m
  · subst h
    simp [marker, putMarker]
  · simp [marker, putMarker, h, AList.lookup_insert_ne h]

@[simp] theorem marker_putMarker_self : (d.putMarker m value).marker m = some value := by simp [marker_putMarker]

@[simp] theorem find_putMarker : (d.putMarker m value).find area name = d.find area name := rfl

theorem marker_eraseMarker : (d.eraseMarker m).marker m' = if m' = m then none else d.marker m' := by
  by_cases h : m' = m
  · subst h
    simp [marker, eraseMarker]
  · simp [marker, eraseMarker, h, AList.lookup_erase_ne h]

@[simp] theorem marker_eraseMarker_self : (d.eraseMarker m).marker m = none := by simp [marker_eraseMarker]

@[simp] theorem find_eraseMarker : (d.eraseMarker m).find area name = d.find area name := rfl

theorem SameBut.refl (d : Disk) : d.SameBut m d := ⟨fun _ => rfl, fun _ _ => rfl, rfl⟩

theorem SameBut.putMarker : d.SameBut m (d.putMarker m value) :=
  ⟨fun hne => by rw [marker_putMarker, if_neg hne], fun _ _ => rfl, rfl⟩

theorem SameBut.eraseMarker : d.SameBut m (d.eraseMarker m) :=
  ⟨fun hne => by rw [marker_eraseMarker, if_neg hne], fun _ _ => rfl, rfl⟩

theorem setContents_of (h : d.find area name = some (.directory id contents)) (x : Contents) :
    d.setContents area name x = d.put area name (.directory id x) := by
  simp [setContents, h]

@[simp] theorem marker_setContents {x : Contents} : (d.setContents area name x).marker m = d.marker m := by
  unfold setContents
  split <;> rfl

theorem idAt_eq_some : d.idAt area name = some id ↔ ∃ contents, d.find area name = some (.directory id contents) := by
  unfold idAt
  cases h : d.find area name with
  | none => simp
  | some entry => cases entry <;> simp [Entry.id?]

theorem idAt_of_find {d' : Disk} (hf : ∀ area name, d'.find area name = d.find area name) (h : d'.idAt area name = some id) :
    d.idAt area name = some id := by
  rw [idAt, hf] at h
  exact h

theorem idAt_put : (d.put area name entry).idAt area' name' =
    if area' = area ∧ name' = name then entry.id? else d.idAt area' name' := by
  simp only [idAt, find_put]
  split <;> rfl

theorem idAt_erase (h : (d.erase area name).idAt area' name' = some id) :
    (area', name') ≠ (area, name) ∧ d.idAt area' name' = some id := by
  simp only [idAt, find_erase] at h
  split at h
  · simp at h
  · rename_i hne
    exact ⟨by simpa using hne, h⟩

theorem areas_of_find (h : d.find area name = some entry) : (d.areas area).isSome := by
  unfold find at h
  cases harea : d.areas area <;> simp_all

theorem areas_of_idAt (h : d.idAt area name = some id) : (d.areas area).isSome := by
  obtain ⟨contents, h⟩ := idAt_eq_some.mp h
  exact areas_of_find h

theorem uses_iff : d.uses id ↔ ∃ area name, d.idAt area name = some id := by
  have hrow : ∀ area, ((d.areas area).any fun rows => rows.entries.any fun row => row.2.id? = some id) = true ↔
      ∃ name, d.idAt area name = some id := by
    intro area
    unfold idAt find
    cases h : d.areas area with
    | none => simp
    | some rows =>
      simp only [Option.any_some, List.any_eq_true, decide_eq_true_eq, Option.bind_some, Option.bind_eq_some_iff]
      constructor
      · rintro ⟨⟨name, entry⟩, hmem, hid⟩
        exact ⟨name, entry, AList.mem_lookup_iff.mpr hmem, hid⟩
      · rintro ⟨name, entry, hfind, hid⟩
        exact ⟨⟨name, entry⟩, AList.mem_lookup_iff.mp hfind, hid⟩
  simp only [uses, List.any_cons, List.any_nil, Bool.or_false, Bool.or_eq_true, hrow]
  constructor
  · rintro (⟨name, h⟩ | ⟨name, h⟩ | ⟨name, h⟩)
    exacts [⟨.volumes, name, h⟩, ⟨.incoming, name, h⟩, ⟨.retired, name, h⟩]
  · rintro ⟨area, name, h⟩
    cases area
    exacts [.inl ⟨name, h⟩, .inr (.inl ⟨name, h⟩), .inr (.inr ⟨name, h⟩)]

end Disk

/-! ### Operations of a node -/

/-- How a call fails. `missing` looks through the text that callers put around a failure. -/
inductive Fault where
  | notExist | alreadyExists | notDirectory | notEmpty | noSpace | identity
  | needsReview (text : String)
  | refused (text : String)
  | wrapped (context : String) (cause : Fault)
  | joined (first second : Fault)
  deriving DecidableEq

def Fault.missing : Fault → Bool
  | .notExist => true
  | .wrapped _ cause => cause.missing
  | .joined first second => first.missing || second.missing
  | _ => false

/-- A node and the API objects that its authority checks read. -/
structure Host (Api : Type) where
  disk : Disk
  api : Api

abbrev NodeOp (Api α : Type) := Proc (Host Api) Fault α

variable {Api α : Type}

namespace NodeOp

def look (f : Disk → Except Fault α) : NodeOp Api α := .read fun h => f h.disk

def change (f : Disk → Except Fault (α × Disk)) : NodeOp Api α :=
  .atomic fun h => (f h.disk).map fun (a, disk) => (a, { h with disk })

def consult (authority : Api → Except Fault Unit) : NodeOp Api Unit := .read fun h => authority h.api

/-- The outcome of `p`, or nothing when what it looks for does not exist. -/
def ifExists (p : NodeOp Api α) : NodeOp Api (Option α) := do
  match ← p.attempt with
  | .ok a => return some a
  | .error e => if e.missing then return none else .fail e

def within (text : String) (p : NodeOp Api α) : NodeOp Api α := p.mapError (.wrapped text)

/-! Calls on directories. -/

def openArea (area : Area) : NodeOp Api Unit :=
  look fun d => if (d.areas area).isSome then .ok () else .error .notExist

def openOrCreateDirectory (area : Area) : NodeOp Api Unit := change fun d => .ok ((), d.makeArea area)

def openDirectory (area : Area) (name : String) : NodeOp Api LiveID :=
  look fun d => match d.find area name with
    | some (.directory id _) => .ok id
    | some .other => .error .notDirectory
    | none => .error .notExist

def pathExists (area : Area) (name : String) : NodeOp Api Bool := look fun d => .ok (d.find area name).isSome

/-- `fresh` is the inode that the filesystem allocates. -/
def makeDirectory (area : Area) (name : String) (fresh : LiveID) : NodeOp Api Unit :=
  change fun d =>
    if (d.find area name).isSome then .error .alreadyExists
    else if d.uses fresh then .error .noSpace
    else .ok ((), d.put area name (.directory fresh .empty))

def renameDirectory (source : Area) (name : String) (target : Area) (targetName : String) : NodeOp Api Unit :=
  change fun d => match d.find source name, d.find target targetName with
    | none, _ => .error .notExist
    | some _, some _ => .error .alreadyExists
    | some entry, none => .ok ((), (d.erase source name).put target targetName entry)

def removeDirectory (area : Area) (name : String) : NodeOp Api Unit :=
  change fun d => match d.find area name with
    | some (.directory _ .empty) => .ok ((), d.erase area name)
    | some (.directory _ _) => .error .notEmpty
    | some .other => .error .notDirectory
    | none => .error .notExist

/-! Calls on markers. -/

def checkMarker (name : MarkerName) (expected : Marker) : NodeOp Api Unit :=
  look fun d => match d.marker name with
    | some value => if value = expected then .ok () else .error .identity
    | none => .error .notExist

def readMarker (name : MarkerName) (decode : Marker → Option α) : NodeOp Api α :=
  look fun d => match d.marker name with
    | some value => (decode value).elim (.error .identity) .ok
    | none => .error .notExist

def ensureMarker (name : MarkerName) (value : Marker) : NodeOp Api Unit :=
  change fun d => match d.marker name with
    | some found => if found = value then .ok ((), d) else .error .identity
    | none => .ok ((), d.putMarker name value)

def removeMarker (name : MarkerName) (expected : Marker) : NodeOp Api Unit :=
  change fun d => match d.marker name with
    | some found => if found = expected then .ok ((), d.eraseMarker name) else .error .identity
    | none => .ok ((), d)

end NodeOp

end ShiftPV

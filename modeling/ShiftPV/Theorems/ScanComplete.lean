import ShiftPV.Lib.Along
import ShiftPV.Theorems.DirectoryFlow
import ShiftPV.Theorems.PromotionResume

/-! What a scan sees. A directory that moves while the places are listed is met where it goes, with one exception: the serving
    place is listed before the incoming one, so that a directory which is published between the two listings is met by
    neither. -/

namespace ShiftPV
open NodeOp

variable {Api α : Type} {D : Nat → Host Api} {ks : List Nat}

/-! ### Reads -/

theorem look_along {f : Disk → Except Fault α} {r : Except Fault α} :
    (look f : NodeOp Api α).along D ks = some r ↔ ∃ k, ks = [k] ∧ r = f (D k).disk := Proc.along_read

theorem ifExists_along {p : NodeOp Api α} {found : Option α} (h : (ifExists p).along D ks = some (.ok found)) :
    match found with
    | some a => p.along D ks = some (.ok a)
    | none => ∃ e, p.along D ks = some (.error e) ∧ e.missing := by
  obtain ⟨is, js, r, rfl, hp, hrest⟩ := Proc.along_bind_ok.mp h
  rw [Proc.along_attempt_ok] at hp
  cases r with
  | ok a =>
    obtain ⟨rfl, rfl⟩ := Proc.along_pure_ok.mp hrest
    simpa using hp
  | error e =>
    simp only at hrest
    split at hrest
    · rename_i hmissing
      obtain ⟨rfl, rfl⟩ := Proc.along_pure_ok.mp hrest
      exact ⟨e, by simpa using hp, hmissing⟩
    · exact absurd hrest Proc.along_fail_ok

theorem openDirectory_along {area : Area} {name : String} {id : LiveID}
    (h : (openDirectory area name : NodeOp Api LiveID).along D ks = some (.ok id)) :
    ∃ k ∈ ks, (D k).disk.idAt area name = some id := by
  obtain ⟨k, rfl, hread⟩ := look_along.mp h
  refine ⟨k, by simp, ?_⟩
  split at hread
  · rename_i found contents hfind
    obtain rfl := Except.ok.inj hread
    exact Disk.idAt_eq_some.mpr ⟨contents, hfind⟩
  · simp at hread
  · simp at hread

theorem readPlacement_along {copyID : String} {record : Placement}
    (h : (NodeOp.readPlacement copyID : NodeOp Api Placement).along D ks = some (.ok record)) :
    ∃ k ∈ ks, (D k).disk.marker (.placement copyID) = some (.placement record) := by
  rw [NodeOp.readPlacement, readMarker] at h
  obtain ⟨k, rfl, hread⟩ := look_along.mp h
  refine ⟨k, by simp, ?_⟩
  split at hread
  · rename_i value hvalue
    cases value <;> simp at hread
    rw [hvalue, hread]
  · simp at hread

/-! ### Records -/

/-- During the reads `ks` the record of the copy was read, and its directory was in the place of the copy. -/
def Sighted (d : Nat → Disk) (ks : List Nat) (identity : CopyIdentity) : Prop :=
  ∃ place id j k, rolePath identity = some place ∧ j ∈ ks ∧ k ∈ ks ∧
    (d j).marker (.placement identity.copyID) = some (.placement { identity, id := id.val }) ∧
    (d k).idAt place.1 place.2 = some (id : LiveID)

theorem Sighted.mono {d : Nat → Disk} {js : List Nat} {identity : CopyIdentity} (h : Sighted d js identity) (hsub : js ⊆ ks) :
    Sighted d ks identity := by
  obtain ⟨place, id, j, k, hplace, hj, hk, h⟩ := h
  exact ⟨place, id, j, k, hplace, hsub hj, hsub hk, h⟩

structure Recorded (marker : String) (identity : CopyIdentity) : Prop where
  valid : identity.valid
  marker : marker = Inventory.placementMarker identity.copyID

section Records

variable {pool : PoolIdentity}

theorem inventoryRecord_along {copyID : String} {record : Placement}
    (h : (Inventory.readPlacement pool copyID : NodeOp Api Placement).along D ks = some (.ok record)) :
    (∃ k ∈ ks, (D k).disk.marker (.placement record.identity.copyID) = some (.placement record)) ∧
      Recorded (Inventory.placementMarker copyID) record.identity := by
  obtain ⟨is, js, found, rfl, hread, h⟩ := Proc.along_bind_ok.mp h
  obtain ⟨is', js, _, rfl, hname, h⟩ := Proc.along_bind_ok.mp h
  obtain ⟨-, hvalid, hname⟩ := Proc.along_ensure_ok.mp hname
  obtain ⟨_, js, _, rfl, -, h⟩ := Proc.along_bind_ok.mp h
  obtain ⟨_, js, _, rfl, -, h⟩ := Proc.along_bind_ok.mp h
  obtain ⟨_, js, _, rfl, -, h⟩ := Proc.along_bind_ok.mp h
  obtain ⟨-, rfl⟩ := Proc.along_pure_ok.mp h
  obtain ⟨k, hk, hmarker⟩ := readPlacement_along hread
  exact ⟨⟨k, by simp [hk], by rw [hname]; exact hmarker⟩, hvalid, by rw [hname]⟩

def Fault.spoken (e : Fault) : Prop := e.text ≠ ""

theorem look_spoken {f : Disk → Except Fault α} (h : ∀ d e, f d = .error e → e.spoken) :
    (look f : NodeOp Api α).FailsWith Fault.spoken := Proc.failsWith_read fun host => h host.disk

theorem checkMarker_spoken {name : MarkerName} {expected : Marker} :
    (checkMarker name expected : NodeOp Api Unit).FailsWith Fault.spoken := by
  refine look_spoken fun d e h => ?_
  split at h
  · split at h
    · simp at h
    · obtain rfl := Except.error.inj h
      simp [Fault.spoken, Fault.text]
  · obtain rfl := Except.error.inj h
    simp [Fault.spoken, Fault.text]

theorem readPlacement_spoken {copyID : String} : (NodeOp.readPlacement copyID : NodeOp Api Placement).FailsWith Fault.spoken := by
  unfold NodeOp.readPlacement readMarker
  refine look_spoken fun d e h => ?_
  split at h
  · rename_i value _
    cases value
    case placement => simp at h
    all_goals
      obtain rfl := Except.error.inj h
      simp [Fault.spoken, Fault.text]
  · obtain rfl := Except.error.inj h
    simp [Fault.spoken, Fault.text]

theorem inventoryRecord_spoken {copyID : String} :
    (Inventory.readPlacement pool copyID : NodeOp Api Placement).FailsWith Fault.spoken := by
  have hidentity : Fault.spoken .identity := by simp [Fault.spoken, Fault.text]
  refine readPlacement_spoken.bind fun record => (Proc.failsWith_ensure hidentity).bind fun _ => ?_
  refine (Proc.failsWith_ensure hidentity).bind fun _ => checkMarker_spoken.bind fun _ => ?_
  exact checkMarker_spoken.bind fun _ => Proc.failsWith_pure

theorem ifExists_spoken {p : NodeOp Api α} (h : p.FailsWith Fault.spoken) : (ifExists p).FailsWith Fault.spoken := by
  refine h.attempt (fun a => Proc.failsWith_pure) fun e he => ?_
  simp only
  split
  · exact Proc.failsWith_pure
  · exact he

theorem pathPresent_spoken {record : Placement} :
    (Inventory.pathPresent record : NodeOp Api Bool).FailsWith Fault.spoken := by
  have hidentity : Fault.spoken .identity := by simp [Fault.spoken, Fault.text]
  unfold Inventory.pathPresent
  split
  · exact hidentity
  refine (ifExists_spoken (look_spoken fun d e h => ?_)).bind fun found => ?_
  · split at h
    · simp at h
    · obtain rfl := Except.error.inj h
      simp [Fault.spoken, Fault.text]
  cases found with
  | none => exact Proc.failsWith_pure
  | some _ =>
    refine (ifExists_spoken (look_spoken fun d e h => ?_)).bind fun found => ?_
    · split at h
      · simp at h
      all_goals
        obtain rfl := Except.error.inj h
        simp [Fault.spoken, Fault.text]
    cases found with
    | none => exact Proc.failsWith_pure
    | some id => exact (Proc.failsWith_ensure hidentity).bind fun _ => Proc.failsWith_pure

theorem pathPresent_along {record : Placement}
    (h : (Inventory.pathPresent record : NodeOp Api Bool).along D ks = some (.ok true)) :
    ∃ place id, rolePath record.identity = some place ∧ record.id = id.val ∧
      ∃ k ∈ ks, (D k).disk.idAt place.1 place.2 = some (id : LiveID) := by
  unfold Inventory.pathPresent at h
  split at h
  · exact absurd h Proc.along_fail_ok
  rename_i area name hplace
  obtain ⟨is, js, found, rfl, -, h⟩ := Proc.along_bind_ok.mp h
  cases found with
  | none => simp [Proc.along_pure_ok] at h
  | some _ =>
    obtain ⟨is', js, found, rfl, hopen, h⟩ := Proc.along_bind_ok.mp h
    cases found with
    | none => simp [Proc.along_pure_ok] at h
    | some id =>
      obtain ⟨_, _, _, rfl, hid, -⟩ := Proc.along_bind_ok.mp h
      obtain ⟨-, hid⟩ := Proc.along_ensure_ok.mp hid
      obtain ⟨k, hk, hat⟩ := openDirectory_along (ifExists_along hopen)
      exact ⟨(area, name), id, hplace, hid.symm, k, by simp [hk], hat⟩

/-- An observation says present only of a copy that was sighted, and it has no identity only where it has a problem. -/
structure Inventory.Observation.Sound (d : Nat → Disk) (ks : List Nat) (item : Inventory.Observation) : Prop where
  sighted : item.isPresent → ∃ identity, item.identity = some identity ∧ Sighted d ks identity
  recorded : item.problem = "" → ∃ identity, item.identity = some identity ∧ Recorded item.marker identity

theorem Inventory.Observation.Sound.mono {d : Nat → Disk} {js : List Nat} {item : Inventory.Observation} (h : item.Sound d js)
    (hsub : js ⊆ ks) : item.Sound d ks := by
  refine ⟨fun hpresent => ?_, h.recorded⟩
  obtain ⟨identity, hidentity, hseen⟩ := h.sighted hpresent
  exact ⟨identity, hidentity, hseen.mono hsub⟩

theorem Inventory.Observation.Sound.of_spoken {d : Nat → Disk} {marker : String} {e : Fault} (h : e.spoken) :
    Inventory.Observation.Sound d ks { marker, identity := none, isPresent := false, problem := e.text } :=
  ⟨by simp, fun hproblem => absurd hproblem h⟩

theorem observe_along {copyID : String} {item : Inventory.Observation}
    (h : (Inventory.observe pool copyID : NodeOp Api Inventory.Observation).along D ks = some (.ok item)) :
    item.Sound (fun k => (D k).disk) ks := by
  obtain ⟨is, js, r, rfl, hread, h⟩ := Proc.along_bind_ok.mp h
  rw [Proc.along_attempt_ok] at hread
  cases r with
  | error e =>
    obtain ⟨-, rfl⟩ := Proc.along_pure_ok.mp h
    exact .of_spoken (inventoryRecord_spoken.along hread)
  | ok record =>
    obtain ⟨is', js, r, rfl, hpath, h⟩ := Proc.along_bind_ok.mp h
    rw [Proc.along_attempt_ok] at hpath
    cases r with
    | error e =>
      obtain ⟨-, rfl⟩ := Proc.along_pure_ok.mp h
      exact .of_spoken (pathPresent_spoken.along hpath)
    | ok isPresent =>
      obtain ⟨-, rfl⟩ := Proc.along_pure_ok.mp h
      obtain ⟨⟨j, hj, hmarker⟩, hrecorded⟩ := inventoryRecord_along hread
      refine ⟨fun hpresent => ?_, fun _ => ⟨_, rfl, hrecorded⟩⟩
      obtain rfl : isPresent = true := hpresent
      obtain ⟨place, id, hplace, hid, k, hk, hat⟩ := pathPresent_along hpath
      refine ⟨record.identity, rfl, place, id, j, k, hplace, by simp [hj], by simp [hk], ?_, hat⟩
      rw [hmarker, ← hid]

theorem observeEach_along {copyIDs : List String} {items : List Inventory.Observation}
    (h : (Inventory.observeEach pool copyIDs : NodeOp Api _).along D ks = some (.ok items)) :
    ∀ item ∈ items, item.Sound (fun k => (D k).disk) ks := by
  induction copyIDs generalizing ks items with
  | nil =>
    obtain ⟨-, rfl⟩ := Proc.along_pure_ok.mp h
    simp
  | cons copyID rest ih =>
    obtain ⟨is, js, first, rfl, hfirst, h⟩ := Proc.along_bind_ok.mp h
    obtain ⟨is', js, others, rfl, hothers, h⟩ := Proc.along_bind_ok.mp h
    obtain ⟨-, rfl⟩ := Proc.along_pure_ok.mp h
    intro item hitem
    rcases List.mem_cons.mp hitem with rfl | hitem
    · exact (observe_along hfirst).mono (by simp)
    · exact (ih hothers item hitem).mono (by simp)

theorem page_along {stream : Option (List String)} {limit : Nat} {page : Inventory.Page}
    (h : (Inventory.page pool stream limit : NodeOp Api _).along D ks = some (.ok page)) :
    ∀ item ∈ page.items, item.Sound (fun k => (D k).disk) ks := by
  obtain ⟨_, js, _, rfl, -, h⟩ := Proc.along_bind_ok.mp h
  obtain ⟨_, js, _, rfl, -, h⟩ := Proc.along_bind_ok.mp h
  obtain ⟨_, js, _, rfl, -, h⟩ := Proc.along_bind_ok.mp h
  obtain ⟨is, js, items, rfl, hitems, h⟩ := Proc.along_bind_ok.mp h
  obtain ⟨-, rfl⟩ := Proc.along_pure_ok.mp h
  intro item hitem
  exact (observeEach_along hitems item hitem).mono fun k hk => by simp [hk]

end Records

/-! ### Entries -/

/-- An entry without a problem is about a recorded copy of this installation, Pool and node. -/
structure CopyObservation.Clean (installationID : String) (pool : Pool) (copy : CopyObservation) (identity : CopyIdentity) : Prop
    extends Recorded copy.marker identity where
  identified : copy.identity = some identity
  installationID : identity.installationID = installationID
  poolName : identity.poolName = pool.name
  poolUID : identity.poolUID = pool.uid
  nodeName : identity.nodeName = pool.nodeName
  published : copy.published → copy.isPresent

/-- Present copies were sighted, and every path that is accounted for is that of a present copy. -/
structure Recording.Sound (d : Nat → Disk) (ks : List Nat) (installationID : String) (pool : Pool) (r : Recording) : Prop where
  copies : ∀ copy ∈ r.copies, copy.isPresent → ∀ identity, copy.identity = some identity → Sighted d ks identity
  known : ∀ place ∈ r.known, ∃ copy ∈ r.copies, copy.isPresent ∧
    (copy.problem = "" → ∃ identity, copy.identity = some identity ∧ rolePath identity = some place)
  clean : ∀ copy ∈ r.copies, copy.problem = "" → ∃ identity, copy.Clean installationID pool identity

section Entries

variable {s : Scanner} {publications : Publications} {pool : Pool} {installationID : String}

variable (publications pool installationID) in
theorem observeItem_present (item : Inventory.Observation) :
    (Scanner.observeItem publications pool installationID item).isPresent = item.isPresent := by
  unfold Scanner.observeItem
  repeat' split
  all_goals rfl

variable (publications pool installationID) in
theorem observeItem_identity (item : Inventory.Observation) :
    (Scanner.observeItem publications pool installationID item).identity = item.identity ∨
      (Scanner.observeItem publications pool installationID item).identity = none ∧
        (Scanner.observeItem publications pool installationID item).problem ≠ "" := by
  unfold Scanner.observeItem
  split
  · exact .inl rfl
  split
  · exact .inr ⟨rfl, by simp⟩
  repeat' split
  all_goals exact .inl rfl

theorem observeItem_clean {item : Inventory.Observation}
    (h : (Scanner.observeItem publications pool installationID item).problem = "")
    (hitem : item.problem = "" → ∃ identity, item.identity = some identity ∧ Recorded item.marker identity) :
    ∃ identity, (Scanner.observeItem publications pool installationID item).Clean installationID pool identity := by
  unfold Scanner.observeItem at h ⊢
  split at h
  · rename_i hnone
    obtain ⟨identity, hidentity, -⟩ := hitem h
    simp [hnone] at hidentity
  rename_i identity hidentity
  simp only [hidentity] at hitem ⊢
  split at h
  · simp at h
  rename_i hours
  rw [if_neg hours]
  simp only [ne_eq, not_or, not_not] at hours
  obtain ⟨hinstallation, hname, huid, hnode⟩ := hours
  have hclean : item.problem = "" → Recorded item.marker identity := by
    intro hproblem
    obtain ⟨found, hfound, hrecorded⟩ := hitem hproblem
    obtain rfl := Option.some.inj hfound
    exact hrecorded
  split at h
  · rename_i hpresent
    rw [if_pos hpresent]
    have hrecorded := hclean hpresent.2
    split at h
    · exact ⟨identity, hrecorded, rfl, hinstallation, hname, huid, hnode, by simp⟩
    · split at h
      · exact ⟨identity, hrecorded, rfl, hinstallation, hname, huid, hnode, fun _ => hpresent.1⟩
      · simp at h
  · rename_i habsent
    rw [if_neg habsent]
    exact ⟨identity, hclean h, rfl, hinstallation, hname, huid, hnode, by simp⟩

theorem Recording.Sound.mono {d : Nat → Disk} {js : List Nat} {r : Recording} (h : r.Sound d js installationID pool)
    (hsub : js ⊆ ks) : r.Sound d ks installationID pool :=
  ⟨fun copy hcopy hpresent identity hidentity => (h.copies copy hcopy hpresent identity hidentity).mono hsub, h.known, h.clean⟩

theorem Recording.Sound.start {d : Nat → Disk} : Recording.start.Sound d ks installationID pool :=
  ⟨by simp [Recording.start], by simp [Recording.start], by simp [Recording.start]⟩

theorem Recording.Sound.addPage {d : Nat → Disk} {r : Recording} {page : Inventory.Page} (h : r.Sound d ks installationID pool)
    (hpage : ∀ item ∈ page.items, item.Sound d ks) :
    (Scanner.addPage publications pool installationID r page).Sound d ks installationID pool := by
  refine ⟨fun copy hcopy hpresent identity hidentity => ?_, fun place hplace => ?_, fun copy hcopy hproblem => ?_⟩
  · rcases List.mem_append.mp hcopy with hcopy | hcopy
    · exact h.copies copy hcopy hpresent identity hidentity
    · obtain ⟨item, hitem, rfl⟩ := List.mem_map.mp hcopy
      rw [observeItem_present] at hpresent
      obtain ⟨found, hfound, hseen⟩ := (hpage item hitem).sighted hpresent
      rcases observeItem_identity publications pool installationID item with
        hsame | ⟨hnone, -⟩
      · rw [hsame, hfound] at hidentity
        obtain rfl := Option.some.inj hidentity
        exact hseen
      · simp [hnone] at hidentity
  · rcases List.mem_append.mp hplace with hplace | hplace
    · obtain ⟨copy, hcopy, hknown⟩ := h.known place hplace
      exact ⟨copy, List.mem_append_left _ hcopy, hknown⟩
    · obtain ⟨item, hitem, hplace⟩ := List.mem_filterMap.mp hplace
      unfold Scanner.knownPath at hplace
      split at hplace
      · rename_i hpresent
        obtain ⟨identity, hidentity, hrole⟩ := Option.bind_eq_some_iff.mp hplace
        refine ⟨_, List.mem_append_right _ (List.mem_map_of_mem hitem), by rw [observeItem_present]; exact hpresent, ?_⟩
        intro hproblem
        rcases observeItem_identity publications pool installationID item with
          hsame | ⟨-, hbad⟩
        · exact ⟨identity, hsame.trans hidentity, hrole⟩
        · exact absurd hproblem hbad
      · simp at hplace
  · rcases List.mem_append.mp hcopy with hcopy | hcopy
    · exact h.clean copy hcopy hproblem
    · obtain ⟨item, hitem, rfl⟩ := List.mem_map.mp hcopy
      exact observeItem_clean hproblem (hpage item hitem).recorded

theorem recordPages_along {fuel : Nat} {r r' : Recording} {js : List Nat}
    (h : (s.recordPages publications pool installationID fuel r).along D js = some (.ok r'))
    (hr : r.Sound (fun k => (D k).disk) ks installationID pool) (hsub : js ⊆ ks) :
    r'.Sound (fun k => (D k).disk) ks installationID pool := by
  induction fuel generalizing r js with
  | zero =>
    obtain ⟨-, rfl⟩ := Proc.along_pure_ok.mp h
    exact hr
  | succ fuel ih =>
    unfold Scanner.recordPages at h
    split at h
    · obtain ⟨-, rfl⟩ := Proc.along_pure_ok.mp h
      exact hr
    obtain ⟨is, js, page, rfl, hpage, h⟩ := Proc.along_bind_ok.mp h
    rw [Proc.along_attempt_ok] at hpage
    cases page with
    | error e =>
      obtain ⟨-, rfl⟩ := Proc.along_pure_ok.mp h
      exact ⟨hr.copies, hr.known, hr.clean⟩
    | ok page =>
      refine ih h (hr.addPage fun item hitem => ?_) fun k hk => hsub (by simp [hk])
      exact (page_along hpage item hitem).mono fun k hk => hsub (by simp [hk])

theorem probeRest_along {r r' : Recording} (h : (s.probeRest pool installationID r : NodeOp Api Recording).along D ks = some (.ok r')) :
    r'.copies = r.copies ∧ r'.known = r.known := by
  unfold Scanner.probeRest at h
  split at h
  · obtain ⟨is, js, page, rfl, -, h⟩ := Proc.along_bind_ok.mp h
    cases page with
    | error e | ok page =>
      obtain ⟨-, rfl⟩ := Proc.along_pure_ok.mp h
      exact ⟨rfl, rfl⟩
  · obtain ⟨-, rfl⟩ := Proc.along_pure_ok.mp h
    exact ⟨rfl, rfl⟩

theorem observeRecorded_along {r : Recording}
    (h : (s.observeRecorded publications pool installationID).along D ks = some (.ok r)) :
    r.Sound (fun k => (D k).disk) ks installationID pool := by
  obtain ⟨is, js, paged, rfl, hpages, h⟩ := Proc.along_bind_ok.mp h
  have hpaged := recordPages_along hpages .start fun k (hk : k ∈ is) => List.mem_append_left js hk
  obtain ⟨hcopies, hknown⟩ := probeRest_along h
  exact ⟨by rw [hcopies]; exact hpaged.copies, by rw [hcopies, hknown]; exact hpaged.known, by rw [hcopies]; exact hpaged.clean⟩

end Entries

/-! ### Paths -/

/-- Unless the limit cut it short, a listing has every name of every place, as of the moment it was listed. -/
theorem listDirectories_along {limit : Nat} {areas : List Area} {result paths : List (Area × String)}
    (h : (listDirectories limit areas result : NodeOp Api _).along D ks = some (.ok (paths, false))) :
    result ⊆ paths ∧ ks.length = areas.length ∧
      ∀ k area, (k, area) ∈ ks.zip areas → ∀ name, ((D k).disk.find area name).isSome → (area, name) ∈ paths := by
  induction areas generalizing ks result with
  | nil =>
    obtain ⟨rfl, hpaths⟩ := Proc.along_pure_ok.mp h
    obtain ⟨rfl, -⟩ := Prod.mk.inj hpaths
    simp
  | cons area areas ih =>
    obtain ⟨is, js, found, rfl, hlook, h⟩ := Proc.along_bind_ok.mp h
    obtain ⟨k, rfl, hfound⟩ := look_along.mp hlook
    obtain rfl := Except.ok.inj hfound
    cases harea : (D k).disk.areas area with
    | none =>
      simp only [harea, Option.map_none] at h
      obtain ⟨hsub, hlength, hall⟩ := ih h
      refine ⟨hsub, by simp [hlength], fun k' area' hmem name hfind => ?_⟩
      rcases List.mem_cons.mp hmem with hhead | hmem
      · obtain ⟨rfl, rfl⟩ := Prod.mk.inj hhead
        simp [Disk.find, harea] at hfind
      · exact hall k' area' hmem name hfind
    | some rows =>
      simp only [harea, Option.map_some] at h
      split at h
      · simp [Proc.along_pure_ok] at h
      · obtain ⟨hsub, hlength, hall⟩ := ih h
        refine ⟨fun place hplace => hsub (List.mem_append_left _ hplace), by simp [hlength], fun k' area' hmem name hfind => ?_⟩
        rcases List.mem_cons.mp hmem with hhead | hmem
        · obtain ⟨rfl, rfl⟩ := Prod.mk.inj hhead
          refine hsub (List.mem_append_right _ (List.mem_map.mpr ⟨name, ?_, rfl⟩))
          exact AList.mem_keys.mp (by simpa [Disk.find, harea, AList.lookup_isSome] using hfind)
        · exact hall k' area' hmem name hfind

theorem scanPhysical_along {limit : Nat} {paths : List (Area × String)}
    (h : (scanPhysical limit : NodeOp Api _).along D ks = some (.ok (paths, false))) :
    ∃ c js, ks = c :: js ∧ js.length = (if (D c).disk.control then 3 else 1) ∧
      ∀ k area, (k, area) ∈ js.zip [Area.volumes, .incoming, .retired] → ∀ name, ((D k).disk.find area name).isSome →
        (area, name) ∈ paths := by
  obtain ⟨is, js, control, rfl, hlook, h⟩ := Proc.along_bind_ok.mp h
  obtain ⟨c, rfl, hcontrol⟩ := look_along.mp hlook
  obtain rfl := Except.ok.inj hcontrol
  refine ⟨c, js, rfl, ?_⟩
  split at h
  · rename_i hcontrol
    obtain ⟨-, hlength, hall⟩ := listDirectories_along h
    exact ⟨by simp [hcontrol, hlength], hall⟩
  · rename_i hcontrol
    obtain ⟨-, hlength, hall⟩ := listDirectories_along h
    refine ⟨by simp [hcontrol, hlength], fun k area hmem => hall k area ?_⟩
    -- the one listing that was made is that of the serving place
    obtain ⟨v, rfl⟩ := List.length_eq_one_iff.mp hlength
    simpa using hmem

/-- A path that was looked at again is reported, unless a creation that ended explains that it is gone. -/
theorem observeUnrecorded_along {limit : Nat} {known paths : List (Area × String)} {result result' : PoolInventory}
    (h : (observeUnrecorded limit known paths result : NodeOp Api _).along D ks = some (.ok (result', true))) :
    result'.truncated = true ∨ (∃ copy ∈ result'.copies, copy.problem ≠ "") ∨
      result' = result ∧ ∀ place ∈ paths, place ∈ known ∨ completedCreationStage place result.copies := by
  induction paths generalizing ks result with
  | nil =>
    obtain ⟨-, hresult⟩ := Proc.along_pure_ok.mp h
    exact .inr (.inr ⟨(Prod.mk.inj hresult).1, by simp⟩)
  | cons place paths ih =>
    unfold observeUnrecorded at h
    split at h
    · rename_i hknown
      rcases ih h with htruncated | hproblem | ⟨hsame, hall⟩
      · exact .inl htruncated
      · exact .inr (.inl hproblem)
      · exact .inr (.inr ⟨hsame, by simpa [hknown] using hall⟩)
    obtain ⟨is, js, found, rfl, -, h⟩ := Proc.along_bind_ok.mp h
    cases found with
    | none =>
      simp only at h
      split at h
      · rename_i hstage
        rcases ih h with htruncated | hproblem | ⟨hsame, hall⟩
        · exact .inl htruncated
        · exact .inr (.inl hproblem)
        · exact .inr (.inr ⟨hsame, by simpa [hstage] using hall⟩)
      · simp [Proc.along_pure_ok] at h
    | some isDirectory =>
      simp only at h
      split at h
      · obtain ⟨-, hresult⟩ := Proc.along_pure_ok.mp h
        exact .inl ((Prod.mk.inj hresult).1 ▸ rfl)
      · rcases ih h with htruncated | hproblem | ⟨rfl, -⟩
        · exact .inl htruncated
        · exact .inr (.inl hproblem)
        · -- the entry that was added reports the path
          refine .inr (.inl ⟨_, List.mem_append_right _ (List.mem_singleton_self _), ?_⟩)
          unfold unrecordedPath
          split <;> simp

theorem observeUnrecorded_valid {limit : Nat} {known paths : List (Area × String)} {result result' : PoolInventory}
    {complete : Bool} (h : (observeUnrecorded limit known paths result : NodeOp Api _).along D ks = some (.ok (result', complete))) :
    result'.valid = result.valid := by
  induction paths generalizing ks result with
  | nil =>
    obtain ⟨-, hresult⟩ := Proc.along_pure_ok.mp h
    exact (Prod.mk.inj hresult).1 ▸ rfl
  | cons place paths ih =>
    unfold observeUnrecorded at h
    split at h
    · exact ih h
    obtain ⟨is, js, found, rfl, -, h⟩ := Proc.along_bind_ok.mp h
    cases found with
    | none =>
      simp only at h
      split at h
      · exact ih h
      · obtain ⟨-, hresult⟩ := Proc.along_pure_ok.mp h
        exact (Prod.mk.inj hresult).1 ▸ rfl
    | some isDirectory =>
      simp only at h
      split at h
      · obtain ⟨-, hresult⟩ := Proc.along_pure_ok.mp h
        exact (Prod.mk.inj hresult).1 ▸ rfl
      · have hkept := ih h
        exact hkept

/-! ### Scans -/

section Scans

variable {s : Scanner} {publications : Publications} {pool : Pool} {installationID : String} {inventory : PoolInventory}

theorem copyProblemMessage_empty {copies : List CopyObservation} (h : copyProblemMessage copies = "") :
    ∀ copy ∈ copies, copy.problem = "" := by
  unfold copyProblemMessage at h
  split at h
  · simp at h
  · rename_i hnone
    simpa using hnone

theorem finish_along {paths known : List (Area × String)} {result : PoolInventory} (hresult : result.valid = false)
    (h : (s.finish paths known result : NodeOp Api PoolInventory).along D ks = some (.ok inventory)) (hvalid : inventory.valid)
    (hfull : inventory.truncated = false) : inventory.copies = result.copies ∧ result.truncated = false ∧
      (∀ copy ∈ result.copies, copy.problem = "") ∧ ∀ place ∈ paths, place ∈ known ∨ completedCreationStage place result.copies := by
  obtain ⟨is, js, ⟨result', complete⟩, rfl, hunrecorded, h⟩ := Proc.along_bind_ok.mp h
  have hinvalid := (observeUnrecorded_valid hunrecorded).trans hresult
  cases complete with
  | false =>
    obtain ⟨-, rfl⟩ := Proc.along_pure_ok.mp h
    simp [hinvalid] at hvalid
  | true =>
    simp only [not_true_eq_false, if_false] at h
    split at h
    · obtain ⟨-, rfl⟩ := Proc.along_pure_ok.mp h
      simp [hinvalid] at hvalid
    obtain ⟨-, rfl⟩ := Proc.along_pure_ok.mp h
    have hmessage : (if result'.message = "" then copyProblemMessage result'.copies else result'.message) = "" :=
      of_decide_eq_true hvalid
    have hclean : ∀ copy ∈ result'.copies, copy.problem = "" := by
      split at hmessage
      · exact copyProblemMessage_empty hmessage
      · exact absurd hmessage ‹_›
    rcases observeUnrecorded_along hunrecorded with htruncated | ⟨copy, hcopy, hproblem⟩ | ⟨rfl, hall⟩
    · rw [show result'.truncated = false from hfull] at htruncated
      simp at htruncated
    · exact absurd (hclean copy hcopy) hproblem
    · exact ⟨rfl, hfull, hclean, hall⟩

/-- A valid and complete inventory accounts for every path that was listed. -/
theorem scanFiles_along (h : (s.scanFiles publications pool installationID).along D ks = some (.ok inventory))
    (hvalid : inventory.valid) (hfull : inventory.truncated = false) :
    ∃ is js paths r, ks = is ++ js ∧ (scanPhysical s.limit).along D is = some (.ok (paths, false)) ∧
      Recording.Sound (fun k => (D k).disk) ks installationID pool r ∧ inventory.copies = r.copies ∧ (∀ copy ∈ r.copies, copy.problem = "") ∧
      ∀ place ∈ paths, place ∈ r.known ∨ completedCreationStage place r.copies := by
  obtain ⟨is, js, ⟨paths, truncated⟩, rfl, hphysical, h⟩ := Proc.along_bind_ok.mp h
  obtain ⟨is₁, js, opened, rfl, -, h⟩ := Proc.along_bind_ok.mp h
  cases opened with
  | error e =>
    obtain ⟨hcopies, htruncated, hclean, hall⟩ := finish_along rfl h hvalid hfull
    obtain rfl : truncated = false := htruncated
    exact ⟨is, _, paths, .start, rfl, hphysical, .start, hcopies, hclean, hall⟩
  | ok _ =>
    obtain ⟨is₂, js, listed, rfl, -, h⟩ := Proc.along_bind_ok.mp h
    cases listed with
    | error e =>
      obtain ⟨-, rfl⟩ := Proc.along_pure_ok.mp h
      simp [unscannedInventory] at hvalid
    | ok _ =>
      obtain ⟨is₃, js, r, rfl, hrecorded, h⟩ := Proc.along_bind_ok.mp h
      split at h
      · obtain ⟨-, rfl⟩ := Proc.along_pure_ok.mp h
        simp [unscannedInventory] at hvalid
      · obtain ⟨hcopies, htruncated, hclean, hall⟩ := finish_along rfl h hvalid hfull
        obtain ⟨-, rfl⟩ : r.done = true ∧ truncated = false := by simpa using htruncated
        exact ⟨is, _, paths, r, rfl, hphysical, (observeRecorded_along hrecorded).mono fun k hk => by simp [hk], hcopies,
          hclean, hall⟩

theorem scan_along (h : (s.scan pool).along D ks = some (.ok inventory)) (hvalid : inventory.valid) :
    ∃ publications installationID, s.installation = some (.ok installationID) ∧
      (s.scanFiles publications pool installationID).along D ks = some (.ok inventory) := by
  have hrefused : ∀ {message}, ¬(pure (unscannedInventory message) : NodeOp Api _).along D ks = some (.ok inventory) := by
    intro message hpure
    obtain ⟨-, rfl⟩ := Proc.along_pure_ok.mp hpure
    simp [unscannedInventory] at hvalid
  unfold Scanner.scan at h
  split at h
  · exact absurd h hrefused
  split at h
  · exact absurd h hrefused
  rename_i publications hpublications
  split at h
  · exact absurd h hrefused
  · exact absurd h hrefused
  rename_i installationID hinstallation
  split at h
  · exact absurd h hrefused
  · exact ⟨publications, installationID, hinstallation, h⟩

end Scans

/-! ### Directories that a scan meets -/

def During (ks : List Nat) (k : Nat) : Prop := ∃ i ∈ ks, ∃ j ∈ ks, i ≤ k ∧ k ≤ j

theorem During.of_mem {k : Nat} (h : k ∈ ks) : During ks k := ⟨k, h, k, h, le_rfl, le_rfl⟩

/-- What an operation must not do while a scan reads at the moments `ks`. -/
structure Undisturbed (d : Nat → Disk) (ks : List Nat) : Prop where
  /-- Nothing is published between the listing of the serving place and that of the incoming one. -/
  published : ∀ {c v i rest}, ks = c :: v :: i :: rest → (d c).control → ∀ {k}, v ≤ k → k < i → ∀ {name id},
    (d (k + 1)).idAt .volumes name = some id → (d k).idAt .volumes name = some id
  /-- Where nothing but the serving place is listed, nothing leaves it before. -/
  retired : ∀ {c v rest}, ks = c :: v :: rest → ¬(d c).control → ∀ {k}, c ≤ k → k < v → ∀ {name id},
    (d k).idAt .volumes name = some id → (d (k + 1)).idAt .volumes name = some id
  /-- No path is used by two directories. -/
  paths : ∀ {j k}, During ks j → During ks k → ∀ {area name id id'}, (d j).idAt area name = some id →
    (d k).idAt area name = some id' → id = id'
  /-- The stage of a creation and the serving directory that is recorded for it are one directory. -/
  stages : ∀ {i j k}, During ks i → During ks j → During ks k → ∀ {identity id id'}, identity.role = .serving →
    (d i).idAt .incoming (stageName identity) = some id →
    (d j).marker (.placement identity.copyID) = some (.placement { identity, id := id'.val }) →
    (d k).idAt .volumes identity.volumeID = some id' → id = id'

/-- The entry says present of a copy in whose place the directory stood during the scan. -/
def CopyObservation.Represents (d : Nat → Disk) (ks : List Nat) (entry : CopyObservation) (id : LiveID) : Prop :=
  entry.isPresent ∧ ∃ identity place k, entry.identity = some identity ∧ rolePath identity = some place ∧ During ks k ∧
    (d k).idAt place.1 place.2 = some id

section Listing

variable {d : Nat → Disk} {c v i t : Nat} {rest : List Nat} {id : LiveID}

theorem Undisturbed.listed (hu : Undisturbed d ks) (hflow : ∀ k, Flows (d k) (d (k + 1))) (hks : ks = c :: v :: i :: t :: rest)
    (hcontrol : (d c).control) (hvi : v ≤ i) (hit : i ≤ t) (hid : ∀ k, v ≤ k → k ≤ t → (d k).uses id) :
    ∃ k area name, (k, area) ∈ [(v, Area.volumes), (i, .incoming), (t, .retired)] ∧ (d k).idAt area name = some id := by
  -- a directory in the incoming place has stood there since it was made
  have hincoming : ∀ {k name}, i ≤ k → k ≤ t → (d k).idAt .incoming name = some id → (d i).idAt .incoming name = some id := by
    intro k name hk hkt hat
    rcases arrived hflow hk (fun k' hk' hk'' => hid k' (by omega) (by omega)) hat with hall | ⟨_, -, -, -, -, from', -, -, hon⟩
    · exact hall i le_rfl hk
    · cases from' <;> simp [Area.onward] at hon
  obtain ⟨area, name, hat⟩ := Disk.uses_iff.mp (hid t (by omega) le_rfl)
  cases area with
  | retired => exact ⟨t, .retired, name, by simp, hat⟩
  | incoming => exact ⟨i, .incoming, name, by simp, hincoming hit le_rfl hat⟩
  | volumes =>
    rcases arrived hflow (by omega : v ≤ t) (fun k hk hk' => hid k hk hk') hat with hall | ⟨k, hk, hkt, hnot, hcame, from', name', hfrom, hon⟩
    · exact ⟨v, .volumes, name, by simp, hall v le_rfl (by omega)⟩
    · rcases Nat.lt_or_ge k i with hlt | hge
      · exact absurd (hu.published hks hcontrol hk hlt hcame) hnot
      · cases from' <;> simp [Area.onward] at hon
        exact ⟨i, .incoming, name', by simp, hincoming hge (by omega) hfrom⟩

theorem Undisturbed.listed_bare (hu : Undisturbed d ks) (hks : ks = c :: v :: rest) (hcontrol : ¬(d c).control) (hcv : c ≤ v)
    (hid : (d c).uses id) : ∃ name, (d v).idAt .volumes name = some id := by
  obtain ⟨area, name, hat⟩ := Disk.uses_iff.mp hid
  simp only [Disk.control, Bool.or_eq_true, not_or, Bool.not_eq_true, Option.isSome_eq_false_iff, Option.isNone_iff_eq_none] at hcontrol
  have harea := Disk.areas_of_idAt hat
  cases area with
  | incoming => simp [hcontrol.1.1] at harea
  | retired => simp [hcontrol.1.2] at harea
  | volumes =>
    refine ⟨name, ?_⟩
    have hstays : ∀ k, c ≤ k → k ≤ v → (d k).idAt .volumes name = some id := by
      intro k hk hkv
      induction k, hk using Nat.le_induction with
      | base => exact hat
      | succ k hk ih =>
        refine hu.retired hks ?_ hk (by omega) (ih (by omega))
        simp [Disk.control, hcontrol.1.1, hcontrol.1.2, hcontrol.2]
    exact hstays v hcv le_rfl

end Listing

/-- Every directory that exists throughout an undisturbed scan is represented in the inventory, if that is valid and
    complete. -/
theorem scan_represents {receiptDigest : Receipt → String} {B : Nat → BusyPool Api} (hB : PoolHistory receiptDigest B)
    (s : Scanner) (pool : Pool) {inventory : PoolInventory} (hks : ks.Pairwise (· ≤ ·))
    (hscan : (s.scan pool).along (fun k => (B k).host) ks = some (.ok inventory))
    (hcalm : Undisturbed (fun k => (B k).host.disk) ks) (hvalid : inventory.valid) (hfull : inventory.truncated = false)
    {id : LiveID} (hid : ∀ k, During ks k → (B k).host.disk.uses id) :
    ∃ entry ∈ inventory.copies, entry.Represents (fun k => (B k).host.disk) ks id := by
  obtain ⟨publications, installationID, -, hfiles⟩ := scan_along hscan hvalid
  obtain ⟨is, js, paths, r, hsplit, hphysical, hsound, hcopies, hclean, hall⟩ := scanFiles_along hfiles hvalid hfull
  -- the directory was met by one of the listings
  obtain ⟨k, hk, area, name, hat, hlisted⟩ : ∃ k ∈ ks, ∃ area name, (B k).host.disk.idAt area name = some id ∧
      (area, name) ∈ paths := by
    obtain ⟨c, js', rfl, hlength, hnames⟩ := scanPhysical_along hphysical
    have hnamed : ∀ {k area name}, (k, area) ∈ js'.zip [Area.volumes, .incoming, .retired] →
        (B k).host.disk.idAt area name = some id → (area, name) ∈ paths := by
      intro k area name hmem hat
      obtain ⟨contents, hfind⟩ := Disk.idAt_eq_some.mp hat
      exact hnames k area hmem name (by rw [hfind]; rfl)
    by_cases hcontrol : (B c).host.disk.control
    · rw [if_pos hcontrol] at hlength
      obtain ⟨v, i, t, rfl⟩ := List.length_eq_three.mp hlength
      have horder : v ≤ i ∧ i ≤ t := by
        rw [hsplit] at hks
        simp only [List.cons_append, List.nil_append, List.pairwise_cons, List.mem_cons] at hks
        exact ⟨hks.2.1 i (.inl rfl), hks.2.2.1 t (.inl rfl)⟩
      obtain ⟨k, area, name, hmem, hat⟩ := hcalm.listed hB.flows hsplit hcontrol horder.1 horder.2 fun k hv ht =>
        hid k ⟨v, by simp [hsplit], t, by simp [hsplit], hv, ht⟩
      refine ⟨k, ?_, area, name, hat, hnamed hmem hat⟩
      rw [hsplit]
      simp only [List.mem_cons, Prod.mk.injEq, List.not_mem_nil, or_false] at hmem
      rcases hmem with ⟨rfl, -⟩ | ⟨rfl, -⟩ | ⟨rfl, -⟩ <;> simp
    · rw [if_neg hcontrol] at hlength
      obtain ⟨v, rfl⟩ := List.length_eq_one_iff.mp hlength
      have horder : c ≤ v := by
        rw [hsplit] at hks
        simp only [List.cons_append, List.nil_append, List.pairwise_cons, List.mem_cons] at hks
        exact hks.1 v (.inl rfl)
      obtain ⟨name, hat⟩ := hcalm.listed_bare hsplit hcontrol horder (hid c (.of_mem (by simp [hsplit])))
      exact ⟨v, by simp [hsplit], .volumes, name, hat, hnamed (by simp) hat⟩
  -- its path is accounted for
  rcases hall _ hlisted with hknown | hstage
  · obtain ⟨copy, hcopy, hpresent, hidentity⟩ := hsound.known _ hknown
    obtain ⟨identity, hidentity, hrole⟩ := hidentity (hclean copy hcopy)
    obtain ⟨place, found, j, k', hplace, -, hk', -, hat'⟩ := hsound.copies copy hcopy hpresent identity hidentity
    obtain rfl : (area, name) = place := Option.some.inj (hrole.symm.trans hplace)
    obtain rfl : id = found := hcalm.paths (.of_mem hk) (.of_mem hk') hat hat'
    exact ⟨copy, hcopies ▸ hcopy, hpresent, identity, _, k', hidentity, hplace, .of_mem hk', hat'⟩
  · simp only [completedCreationStage, List.any_eq_true, Option.any_eq_true, Bool.and_eq_true, decide_eq_true_eq] at hstage
    obtain ⟨copy, hcopy, identity, hidentity, ⟨⟨hpresent, -⟩, hserving⟩, hplace⟩ := hstage
    obtain ⟨rfl, rfl⟩ := Prod.mk.inj hplace
    obtain ⟨place, found, j, k', hrole, hj, hk', hmarker, hat'⟩ := hsound.copies copy hcopy hpresent identity hidentity
    obtain rfl : (Area.volumes, identity.volumeID) = place := by simpa [rolePath, hserving] using hrole
    obtain rfl : id = found := hcalm.stages (.of_mem hk) (.of_mem hj) (.of_mem hk') hserving hat hmarker hat'
    exact ⟨copy, hcopies ▸ hcopy, hpresent, identity, _, k', hidentity, hrole, .of_mem hk', hat'⟩

/-! ### Two scans -/

def BusyPool.replay (receiptDigest : Receipt → String) (pool : BusyPool Api) : List (PoolStep Api) → Nat → BusyPool Api
  | _, 0 | [], _ => pool
  | act :: acts, k + 1 => (pool.step receiptDigest act).replay receiptDigest acts k

theorem BusyPool.replay_history {receiptDigest : Receipt → String} {pool : BusyPool Api} (hidle : pool.running = [])
    (acts : List (PoolStep Api)) : PoolHistory receiptDigest (pool.replay receiptDigest acts) := by
  refine ⟨by cases acts <;> exact hidle, fun k => ?_⟩
  clear hidle
  induction k generalizing pool acts with
  | zero =>
    cases acts with
    | nil => exact ⟨.rest, rfl⟩
    | cons act acts => exact ⟨act, by cases acts <;> rfl⟩
  | succ k ih =>
    cases acts with
    | nil => exact ⟨.rest, rfl⟩
    | cons act acts => exact ih acts

def poolB : Pool where
  name := "pool-b"
  uid := "pool-b-uid"
  nodeName := "node-b"
  scanEpoch := 0
  generation := 1
  isProtected := true
  isDeleting := false
  retirementApproval := ""
  capacityPolicy := ""
  mountPolicy := ""
  configurationReason := ""
  status := { registrationApproved := true, observedGeneration := 0, capacityUnit := none, inventory := none }

def scannerB : Scanner where
  hostRoot := "/host"
  targetRoot := "/pods"
  installation := some (.ok "install")
  publications := some fun _ => .ok false
  snapshotPublications := none
  limit := 256
  verifyBacking := .ok ()

def createdCopy : CopyIdentity := { incomingCopy with copyID := "initial-1", role := .serving }

def creatingPool : Nat → BusyPool Unit :=
  BusyPool.replay (fun _ => "") ⟨⟨⟨fun _ => none, ∅⟩, ()⟩, []⟩
    (.start (.prepareServing createdCopy incomingID fun _ => .ok ()) :: List.replicate 15 (.advance 0))

/-- All listings are made while the directory is staged, all records are read when it serves. -/
def creatingReads : List Nat := List.replicate 4 15 ++ List.replicate 12 16

theorem creatingPool_ids {k : Nat} (hk : During creatingReads k) {area : Area} {name : String} {id : LiveID}
    (h : (creatingPool k).host.disk.idAt area name = some id) : id = incomingID := by
  obtain ⟨i, hi, j, hj, hik, hkj⟩ := hk
  have hrange : k = 15 ∨ k = 16 := by
    simp only [creatingReads, List.mem_append, List.mem_replicate] at hi hj
    omega
  have hentry : ∀ entry ∈ [Area.volumes, .incoming, .retired].flatMap fun area =>
      (((creatingPool k).host.disk.areas area).map fun rows => rows.entries.map fun row => row.2.id?).getD [],
      entry = some incomingID := by
    rcases hrange with rfl | rfl <;> decide +kernel
  obtain ⟨contents, hfind⟩ := Disk.idAt_eq_some.mp h
  unfold Disk.find at hfind
  obtain ⟨rows, hrows, hlookup⟩ := Option.bind_eq_some_iff.mp hfind
  refine Option.some.inj (hentry (some id) (List.mem_flatMap.mpr ⟨area, by cases area <;> simp, ?_⟩))
  rw [hrows]
  exact List.mem_map.mpr ⟨⟨name, _⟩, AList.mem_lookup_iff.mp hlookup, rfl⟩

theorem creatingReads_undisturbed : Undisturbed (fun k => (creatingPool k).host.disk) creatingReads where
  published := by
    rintro c v i rest hks - k hv hi
    obtain ⟨-, rfl, rfl, -⟩ : c = 15 ∧ v = 15 ∧ i = 15 ∧ _ := by simpa [creatingReads, List.replicate, eq_comm] using hks
    omega
  retired := by
    rintro c v rest hks hcontrol
    obtain ⟨rfl, -⟩ : c = 15 ∧ _ := by simpa [creatingReads, List.replicate, eq_comm] using hks
    exact absurd (by decide +kernel) hcontrol
  paths hj hk := fun h h' => (creatingPool_ids hj h).trans (creatingPool_ids hk h').symm
  stages hi _ hk := fun _ h _ h' => (creatingPool_ids hi h).trans (creatingPool_ids hk h').symm

/-- A creation that ends during the scan is not missed. -/
theorem scan_represents_creation : ∃ inventory,
    (scannerB.scan poolB).along (fun k => (creatingPool k).host) creatingReads = some (.ok inventory) ∧ inventory.valid ∧
      inventory.truncated = false ∧
      ∃ entry ∈ inventory.copies, entry.Represents (fun k => (creatingPool k).host.disk) creatingReads incomingID := by
  have hscan : ((scannerB.scan poolB).along (fun k => (creatingPool k).host) creatingReads).any
      (fun r => r.toOption.any fun inventory => inventory.valid && !inventory.truncated) := by decide +kernel
  obtain ⟨r, hr, hinventory⟩ := (Option.any_eq_true ..).mp hscan
  cases r with
  | error e => simp [Except.toOption] at hinventory
  | ok inventory =>
    simp only [Except.toOption, Option.any_some, Bool.and_eq_true, Bool.not_eq_true'] at hinventory
    refine ⟨inventory, hr, hinventory.1, hinventory.2, ?_⟩
    refine scan_represents (BusyPool.replay_history rfl _) scannerB poolB (by decide) hr creatingReads_undisturbed
      hinventory.1 hinventory.2 fun k hk => ?_
    obtain ⟨i, hi, j, hj, hik, hkj⟩ := hk
    have hrange : k = 15 ∨ k = 16 := by
      simp only [creatingReads, List.mem_append, List.mem_replicate] at hi hj
      omega
    rcases hrange with rfl | rfl <;> decide +kernel

def promotingPool : Nat → BusyPool Unit :=
  BusyPool.replay (fun _ => "")
    ⟨⟨incomingDisk (.copyReceipt "move-1") (.transfer ⟨"move-1", incomingCopy, incomingID.val⟩), ()⟩, []⟩
    (.start (.promoteIncoming incomingCopy destinationCopy "move-1" fun _ => .ok ()) :: List.replicate 14 (.advance 0))

/-- The promoted directory leaves the incoming place after the serving place was listed and before the incoming one is:
    the inventory is valid and complete, and nothing in it is present. -/
theorem promotion_unseen : ∃ ks inventory, PoolHistory (fun _ => "") promotingPool ∧ ks.Pairwise (· ≤ ·) ∧
    (scannerB.scan poolB).along (fun k => (promotingPool k).host) ks = some (.ok inventory) ∧
    inventory.valid ∧ inventory.truncated = false ∧ (∀ k, During ks k → (promotingPool k).host.disk.uses incomingID) ∧
    ∀ entry ∈ inventory.copies, ¬entry.isPresent := by
  have hscan : ((scannerB.scan poolB).along (fun k => (promotingPool k).host) ([14, 14] ++ List.replicate 12 15)).any
      (fun r => r.toOption.any fun inventory => inventory.valid && !inventory.truncated &&
        inventory.copies.all fun entry => !entry.isPresent) := by decide +kernel
  obtain ⟨r, hr, hinventory⟩ := (Option.any_eq_true ..).mp hscan
  cases r with
  | error e => simp [Except.toOption] at hinventory
  | ok inventory =>
    simp only [Except.toOption, Option.any_some, Bool.and_eq_true, Bool.not_eq_true', List.all_eq_true] at hinventory
    refine ⟨_, inventory, BusyPool.replay_history rfl _, by decide, hr, hinventory.1.1, hinventory.1.2, fun k hk => ?_,
      fun entry hentry => by simp [hinventory.2 entry hentry]⟩
    obtain ⟨i, hi, j, hj, hik, hkj⟩ := hk
    have hrange : k = 14 ∨ k = 15 := by
      simp only [List.mem_append, List.mem_cons, List.not_mem_nil, or_false, List.mem_replicate] at hi hj
      omega
    rcases hrange with rfl | rfl <;> decide +kernel

end ShiftPV

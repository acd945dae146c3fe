import ShiftPV.PoolRegistry

/-! Ready Pools are isolated. Independence is decided for one Pool at a time, against the registrations that concern it; a
    Ready Pool is always approved, so every other Ready Pool of its node is among them. -/

namespace ShiftPV
open Check

/-! ### Sectors -/

def Extent.Covers (e : Extent) (device : String) (sector : Nat) : Prop :=
  e.device = device ∧ e.start.toNat ≤ sector ∧ sector < e.start.toNat + e.sectors.toNat

def CapacityUnit.Covers (unit : CapacityUnit) (device : String) (sector : Nat) : Prop :=
  ∃ e ∈ unit.extents, e.Covers device sector

theorem Extent.validate_end {e : Extent} (h : e.validate = .ok ()) :
    (e.start + e.sectors).toNat = e.start.toNat + e.sectors.toNat := by
  simp only [Extent.validate, seq_ok, require_ok] at h
  obtain ⟨-, -, hbound⟩ := h
  have hle := UInt64.le_iff_toNat_le.mp hbound
  have hstart := e.start.toNat_lt
  have hmax : maxUint64.toNat = 2 ^ 64 - 1 := rfl
  have hroom : e.start ≤ maxUint64 := by rw [UInt64.le_iff_toNat_le, hmax]; omega
  rw [UInt64.toNat_sub_of_le _ _ hroom, hmax] at hle
  rw [UInt64.toNat_add]
  omega

theorem Extent.meets_of_covers {a b : Extent} (ha : a.validate = .ok ()) (hb : b.validate = .ok ()) {device : String}
    {sector : Nat} (hacovers : a.Covers device sector) (hbcovers : b.Covers device sector) : a.meets b := by
  obtain ⟨hadevice, hastart, haend⟩ := hacovers
  obtain ⟨hbdevice, hbstart, hbend⟩ := hbcovers
  simp only [Extent.meets, Bool.and_eq_true, decide_eq_true_eq, UInt64.lt_iff_toNat_lt, Extent.validate_end ha,
    Extent.validate_end hb]
  exact ⟨⟨hadevice.trans hbdevice.symm, by omega⟩, by omega⟩

theorem normalizeOnto_validates {normalized extents result : List Extent}
    (h : normalizeOnto normalized extents = .ok result) : ∀ e ∈ extents, e.validate = .ok () := by
  induction extents generalizing normalized with
  | nil => simp
  | cons first rest ih =>
    have hstep : first.validate = .ok () ∧ ∃ onto, normalizeOnto onto rest = .ok result := by
      cases normalized with
      | nil =>
        rw [normalizeOnto, seq_ok] at h
        exact ⟨h.1, _, h.2⟩
      | cons previous before =>
        rw [normalizeOnto, seq_ok] at h
        obtain ⟨hvalid, hrest⟩ := h
        refine ⟨hvalid, ?_⟩
        split at hrest
        · rw [seq_ok] at hrest
          obtain ⟨-, hjoined⟩ := hrest
          split at hjoined <;> exact ⟨_, hjoined⟩
        · exact ⟨_, hrest⟩
    obtain ⟨hfirst, onto, honto⟩ := hstep
    exact List.forall_mem_cons.mpr ⟨hfirst, ih honto⟩

theorem normalize_validates {extents result : List Extent} (h : normalize extents = .ok result) :
    ∀ e ∈ extents, e.validate = .ok () := by
  rw [normalize, seq_ok] at h
  intro e he
  exact normalizeOnto_validates h.2 e ((List.mem_insertionSort _).mpr he)

theorem CapacityUnit.validate_ok {unit : Option CapacityUnit} (h : CapacityUnit.validate unit = .ok ()) :
    ∃ declared, unit = some declared ∧ normalize declared.extents = .ok declared.extents := by
  cases unit with
  | none => simp [CapacityUnit.validate] at h
  | some declared =>
    rw [CapacityUnit.validate, seq_ok, bind_ok] at h
    obtain ⟨-, normalized, hnormalized, hsame⟩ := h
    rw [require_ok] at hsame
    exact ⟨declared, rfl, hsame ▸ hnormalized⟩

theorem overlap_disjoint {left right : CapacityUnit} (hleft : normalize left.extents = .ok left.extents)
    (hright : normalize right.extents = .ok right.extents) (h : overlap left.extents right.extents = .ok false)
    (device : String) (sector : Nat) : ¬(left.Covers device sector ∧ right.Covers device sector) := by
  rintro ⟨⟨a, ha, hacovers⟩, b, hb, hbcovers⟩
  rw [overlap, hleft, hright] at h
  have hany : (left.extents.any fun a => right.extents.any a.meets) = false := pure_ok.mp h
  rw [List.any_eq_false] at hany
  refine hany a ha (List.any_eq_true.mpr ⟨b, hb, ?_⟩)
  exact Extent.meets_of_covers (normalize_validates hleft a ha) (normalize_validates hright b hb) hacovers hbcovers

/-! ### Independence -/

/-- The paths differ, and neither names a directory above the other. -/
def PathsApart (left right : String) : Prop :=
  Paths.clean left ≠ Paths.clean right ∧ ¬Paths.Contains left right ∧ ¬Paths.Contains right left

theorem pathsApart_of_not_overlap {left right : String} (h : ¬Paths.overlap left right) : PathsApart left right := by
  refine ⟨fun hsame => h (Paths.overlap_of_clean hsame), fun hin => h (Paths.overlap_of_contains hin), fun hin => h ?_⟩
  rw [Paths.overlap_comm]
  exact Paths.overlap_of_contains hin

namespace Allocation

theorem independentPair_ok {target peer : Allocation} (h : (target.independentPair peer).ok) :
    target.policy = fixedBlock ∧ ¬Paths.overlap target.mountPath peer.mountPath ∧ peer.policy = fixedBlock ∧
      peer.proven ∧ overlap target.extents peer.extents = .ok false := by
  unfold independentPair at h
  split at h
  · simp [RegistrationCheck.failed] at h
  · rename_i hpolicy
    split at h
    · simp [RegistrationCheck.failed] at h
    · rename_i hpaths
      split at h
      · simp [RegistrationCheck.failed] at h
      · rename_i hpeer
        split at h
        · rename_i hoverlap
          exact ⟨not_not.mp hpolicy, hpaths, not_not.mp (not_or.mp hpeer).1, not_not.mp (not_or.mp hpeer).2, hoverlap⟩
        · simp [RegistrationCheck.failed] at h

theorem independentPeers_ok {target : Allocation} {peers : List Allocation} (h : (target.independentPeers peers).ok) :
    ∀ peer ∈ peers, target.concerns peer →
      if peer.retired then ¬Paths.overlap target.mountPath peer.mountPath else (target.independentPair peer).ok := by
  induction peers with
  | nil => simp
  | cons first rest ih =>
    rw [independentPeers] at h
    -- Each way to go on with the rest settled the first peer, or skipped it as no concern.
    have hstep : (target.independentPeers rest).ok ∧ (target.concerns first →
        if first.retired then ¬Paths.overlap target.mountPath first.mountPath else (target.independentPair first).ok) := by
      split at h
      · rename_i hskip
        exact ⟨h, fun hconcerns => absurd hconcerns hskip⟩
      · split at h
        · split at h
          · simp [RegistrationCheck.failed] at h
          · rename_i hpaths
            exact ⟨h, fun _ => by simp [*]⟩
        · simp only at h
          split at h
          · rename_i hpair
            exact ⟨h, fun _ => by simp [*]⟩
          · exact absurd h ‹_›
    exact List.forall_mem_cons.mpr ⟨hstep.2, ih hstep.1⟩

theorem independent_ok {target : Allocation} {peers : List Allocation} (hlive : ¬target.deleting)
    (h : (target.independent peers).ok) :
    (target.policy = fixedBlock → target.proven) ∧ (target.independentPeers peers).ok := by
  unfold independent at h
  split at h
  · simp [RegistrationCheck.failed] at h
  · split at h
    · simp [RegistrationCheck.failed] at h
    · split at h
      · split at h
        · rename_i hfailed
          exact absurd h hfailed.2
        · simp [RegistrationCheck.failed] at h
      · rename_i hproven
        exact ⟨fun hpolicy => by_contra fun hnot => hproven ⟨hpolicy, hnot⟩, h⟩

theorem proven_unit {allocation : Allocation} (h : allocation.proven) :
    ∃ declared, allocation.unit = some declared ∧ allocation.extents = declared.extents ∧
      CapacityUnit.validate (some declared) = .ok () := by
  simp only [proven, Bool.and_eq_true, passes_unit] at h
  obtain ⟨declared, hunit, -⟩ := CapacityUnit.validate_ok h.2
  exact ⟨declared, hunit, by simp [extents, hunit], hunit ▸ h.2⟩

end Allocation

/-! ### Ready Pools -/

theorem PoolReader.poolReady_ok {r : PoolReader} {pool : RegisteredPool} (h : r.poolReady pool = .ok ()) :
    pool.registrationApproved r.conditions ∧ ¬pool.registrationRetired ∧ ¬pool.isDeleting := by
  rw [PoolReader.poolReady, seq_ok, bind_ok] at h
  obtain ⟨-, reason, hready, hrest⟩ := h
  rw [seq_ok] at hrest
  obtain ⟨hinventory, -⟩ := hrest
  simp only [RegisteredPool.readyAt, seq_ok, require_ok] at hready
  obtain ⟨hretired, -, hdeleting, hcondition, -⟩ := hready
  refine ⟨?_, hretired, hdeleting⟩
  cases hstored : pool.status.inventory with
  | none => simp [RegisteredPool.inventoryReadyAt, hstored] at hinventory
  | some inventory =>
    simp only [RegisteredPool.inventoryReadyAt, hstored, seq_ok, require_ok] at hinventory
    obtain ⟨⟨hvalid, hmessage⟩, htruncated, -⟩ := hinventory
    simp [RegisteredPool.registrationApproved, hcondition, hstored, hvalid, hmessage, htruncated]

structure RegisteredPool.Isolated (a b : RegisteredPool) : Prop where
  policies : a.capacityPolicy = fixedBlock ∧ b.capacityPolicy = fixedBlock
  paths : PathsApart a.mountPath b.mountPath
  units : ∃ left right, a.status.capacityUnit = some left ∧ b.status.capacityUnit = some right ∧
    CapacityUnit.validate (some left) = .ok () ∧ CapacityUnit.validate (some right) = .ok () ∧
      ∀ device sector, ¬(left.Covers device sector ∧ right.Covers device sector)

/-- A live Pool that is independent of its peers is isolated from each live peer it compares itself with. -/
theorem RegisteredPool.isolated_of_independent {a b : RegisteredPool} {pools : List RegisteredPool}
    {conditions : StatusConditions} (hindependent : (a.capacityIndependent conditions pools).ok) (hlive : ¬a.isDeleting) (hb : b ∈ pools)
    (hconcerns : (a.registrationAllocation conditions).concerns (b.registrationAllocation conditions)) (hretired : ¬b.registrationRetired) :
    a.Isolated b := by
  obtain ⟨hproven, hpeers⟩ := Allocation.independent_ok hlive hindependent
  have hpeer := Allocation.independentPeers_ok hpeers _ (List.mem_map_of_mem hb) hconcerns
  have hpair : ((a.registrationAllocation conditions).independentPair (b.registrationAllocation conditions)).ok := by
    simpa [registrationAllocation, hretired] using hpeer
  obtain ⟨hpolicy, hpaths, hpeerPolicy, hpeerProven, hoverlap⟩ := Allocation.independentPair_ok hpair
  obtain ⟨left, hleft, hleftExtents, hleftValid⟩ := Allocation.proven_unit (hproven hpolicy)
  obtain ⟨right, hright, hrightExtents, hrightValid⟩ := Allocation.proven_unit hpeerProven
  rw [hleftExtents, hrightExtents] at hoverlap
  obtain ⟨_, hleftSome, hleftNormal⟩ := CapacityUnit.validate_ok hleftValid
  obtain ⟨_, hrightSome, hrightNormal⟩ := CapacityUnit.validate_ok hrightValid
  cases hleftSome
  cases hrightSome
  exact ⟨⟨hpolicy, hpeerPolicy⟩, pathsApart_of_not_overlap hpaths,
    left, right, hleft, hright, hleftValid, hrightValid, overlap_disjoint hleftNormal hrightNormal hoverlap⟩

/-- Each Ready Pool is isolated from every other Ready Pool of its node, and its path is apart from the path of every
    other approved registration there that was retired. -/
theorem ready_isolated (r : PoolReader) (stored : List RegisteredPool) (hunique : (stored.map (·.uid)).Nodup)
    (a : RegisteredPool) (ha : a ∈ (r.observePools stored).ready) :
    (∀ b ∈ (r.observePools stored).ready, b ≠ a → b.nodeName = a.nodeName → a.Isolated b) ∧
      ∀ b ∈ stored, b ≠ a → b.nodeName = a.nodeName → b.registrationApproved r.conditions → b.registrationRetired →
        PathsApart a.mountPath b.mountPath := by
  simp only [PoolReader.observePools, PoolReader.listPools, List.mem_filter, List.mem_insertionSort, Bool.and_eq_true,
    passes_unit] at ha ⊢
  obtain ⟨hastored, haready, haindependent⟩ := ha
  obtain ⟨haapproved, -, hadeleting⟩ := PoolReader.poolReady_ok haready
  -- An approved registration of the node is always compared with, since the UIDs differ.
  have hconcerns : ∀ b ∈ stored, b ≠ a → b.nodeName = a.nodeName → b.registrationApproved r.conditions →
      (a.registrationAllocation r.conditions).concerns (b.registrationAllocation r.conditions) := by
    intro b hb hne hnode happroved
    have huid : b.uid ≠ a.uid := fun hsame => hne (List.inj_on_of_nodup_map hunique hb hastored hsame)
    simp [Allocation.concerns, RegisteredPool.registrationAllocation, hnode, huid, happroved]
  constructor
  · rintro b ⟨hbstored, hbready, -⟩ hne hnode
    obtain ⟨hbapproved, hbretired, -⟩ := PoolReader.poolReady_ok hbready
    exact RegisteredPool.isolated_of_independent haindependent hadeleting ((List.mem_insertionSort _).mpr hbstored)
      (hconcerns b hbstored hne hnode hbapproved) hbretired
  · intro b hbstored hne hnode hbapproved hbretired
    obtain ⟨-, hpeers⟩ := Allocation.independent_ok hadeleting haindependent
    have hpeer := Allocation.independentPeers_ok hpeers _ (List.mem_map_of_mem ((List.mem_insertionSort _).mpr hbstored))
      (hconcerns b hbstored hne hnode hbapproved)
    have hretired : (b.registrationAllocation r.conditions).retired := hbretired
    rw [if_pos hretired] at hpeer
    exact pathsApart_of_not_overlap hpeer

def setStatusCondition : List PoolCondition → PoolCondition → List PoolCondition
  | [], condition => [condition]
  | old :: rest, condition => if old.type = condition.type then condition :: rest else old :: setStatusCondition rest condition

def listConditions : StatusConditions where
  find conditions type := conditions.find? fun c => c.type = type
  set := setStatusCondition
  remove conditions type := conditions.filter fun c => c.type ≠ type

def sampleReader : PoolReader :=
  { now := 100, staleAfter := 0, parseQuantity := fun _ => .ok (some 1), isDNS1123Label := fun _ => true
    conditions := listConditions }

def fixedPool (name mountPath retirementApproval : String) (start : UInt64) : RegisteredPool :=
  { name, uid := name, nodeName := "node", poolGroup := "default", mountPath, capacityPolicy := fixedBlock, mountPolicy := ""
    capacityLimit := "1", generation := 1, isDeleting := false, finalizers := [poolProtectionFinalizer]
    retirementRequest := "", retirementApproval, capacityProbeRequest := none
    status :=
      { registrationApproved := true, capacityProbeSupported := true, capacityProbe := none, observedGeneration := 1
        lastProbeTime := some 99
        capacityUnit := some { device := "8:1", source := "/dev/sda1", filesystem := "ext4", extents := [⟨"8:0", start, 10⟩] }
        mountIdentity := none
        conditions := [⟨.ready, true, "PoolReady", 1⟩, ⟨.capacityBackingVerified, true, "", 1⟩, ⟨.capacityIndependent, true, "", 1⟩]
        inventory := some { valid := true, truncated := false, message := "", copies := [], observedAt := some 99 } } }

def neighbouringPools : List RegisteredPool :=
  [fixedPool "old" "/data" "old" 0, fixedPool "left" "/data-left" "" 10, fixedPool "right" "/data-right" "" 20]

theorem ready_isolated_neighbours :
    (fixedPool "left" "/data-left" "" 10).Isolated (fixedPool "right" "/data-right" "" 20) ∧
      PathsApart "/data-left" "/data" := by
  have hready : ∀ pool ∈ neighbouringPools.tail, pool ∈ (sampleReader.observePools neighbouringPools).ready := by
    decide +kernel
  have hapart := ready_isolated sampleReader neighbouringPools (by decide) _ (hready (fixedPool "left" "/data-left" "" 10) (by decide))
  exact ⟨hapart.1 _ (hready _ (by decide)) (by decide) rfl, hapart.2 (fixedPool "old" "/data" "old" 0) (by decide) (by decide) rfl
    (by decide) (by decide)⟩

end ShiftPV

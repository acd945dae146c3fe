import ShiftPV.Theorems.BlockExtents

/-! What a device is made of. A sector of a partition is a sector of its parent, a sector of a mapped device is one of the
    device under its segment, and a sector of any other device is physical. -/

namespace ShiftPV
open Check

variable {backend : Backend} {device : String} {start sectors : UInt64} {segments : List Segment} {s t : Segment} {b : Block}
  {extents result : List Extent} {visiting : List String} {depth sector : Nat} {p : String × Nat}
  {resolve : String → UInt64 → UInt64 → Except String (List Extent)}

inductive MapsTo (backend : Backend) : String → Nat → String × Nat → Prop
  | partition {device : String} {sector : Nat} {p : String × Nat} {b : Block} (hb : backend device = .ok b) (hsector : sector < b.size.toNat)
      (hparent : b.parent ≠ "") (hbelow : MapsTo backend b.parent (b.start.toNat + sector) p) : MapsTo backend device sector p
  | physical {device : String} {sector : Nat} {b : Block} (hb : backend device = .ok b) (hsector : sector < b.size.toNat)
      (hparent : b.parent = "") (hmapped : b.mapped = false) : MapsTo backend device sector (if b.identity = "" then device else b.identity, sector)
  | segment {device : String} {sector : Nat} {p : String × Nat} {b : Block} {s : Segment} (hb : backend device = .ok b)
      (hsector : sector < b.size.toNat) (hparent : b.parent = "") (hmapped : b.mapped = true) (hs : s ∈ b.segments)
      (hfrom : s.start.toNat ≤ sector) (hto : sector < s.start.toNat + s.sectors.toNat)
      (hbelow : MapsTo backend s.device (s.offset.toNat + (sector - s.start.toNat)) p) : MapsTo backend device sector p

theorem MapsTo.partition_iff (hb : backend device = .ok b) (hparent : b.parent ≠ "") (hsector : sector < b.size.toNat) :
    MapsTo backend device sector p ↔ MapsTo backend b.parent (b.start.toNat + sector) p := by
  refine ⟨fun h => ?_, .partition hb hsector hparent⟩
  cases h with
  | partition hb' _ _ hbelow =>
    obtain rfl := Except.ok.inj (hb.symm.trans hb')
    exact hbelow
  | physical hb' _ hparent' | segment hb' _ hparent' =>
    obtain rfl := Except.ok.inj (hb.symm.trans hb')
    exact absurd hparent' hparent

theorem MapsTo.physical_iff (hb : backend device = .ok b) (hparent : b.parent = "") (hmapped : b.mapped = false)
    (hsector : sector < b.size.toNat) :
    MapsTo backend device sector p ↔ (if b.identity = "" then device else b.identity, sector) = p := by
  refine ⟨fun h => ?_, fun h => h ▸ .physical hb hsector hparent hmapped⟩
  cases h with
  | partition hb' _ hparent' =>
    obtain rfl := Except.ok.inj (hb.symm.trans hb')
    exact absurd hparent hparent'
  | physical hb' =>
    obtain rfl := Except.ok.inj (hb.symm.trans hb')
    rfl
  | segment hb' _ _ hmapped' =>
    obtain rfl := Except.ok.inj (hb.symm.trans hb')
    simp [hmapped] at hmapped'

theorem Contiguous.unique {first size : Nat} (h : Contiguous first segments size) (hs : s ∈ segments) (ht : t ∈ segments)
    (hsfrom : s.start.toNat ≤ sector) (hsto : sector < s.start.toNat + s.sectors.toNat) (htfrom : t.start.toNat ≤ sector)
    (htto : sector < t.start.toNat + t.sectors.toNat) : s = t := by
  induction segments generalizing first with
  | nil => simp at hs
  | cons u rest ih =>
    obtain ⟨hstart, hrest⟩ := h
    rcases List.mem_cons.mp hs with rfl | hs' <;> rcases List.mem_cons.mp ht with rfl | ht'
    · rfl
    · have := (hrest.bounds ht').1
      omega
    · have := (hrest.bounds hs').1
      omega
    · exact ih hrest hs' ht'

theorem MapsTo.segment_iff (hb : backend device = .ok b) (hparent : b.parent = "") (hmapped : b.mapped = true)
    (htable : Contiguous 0 b.segments b.size.toNat) (hs : s ∈ b.segments) (hfrom : s.start.toNat ≤ sector)
    (hto : sector < s.start.toNat + s.sectors.toNat) :
    MapsTo backend device sector p ↔ MapsTo backend s.device (s.offset.toNat + (sector - s.start.toNat)) p := by
  have hsize := (htable.bounds hs).2
  refine ⟨fun h => ?_, .segment hb (by omega) hparent hmapped hs hfrom hto⟩
  cases h with
  | partition hb' _ hparent' =>
    obtain rfl := Except.ok.inj (hb.symm.trans hb')
    exact absurd hparent hparent'
  | physical hb' _ _ hmapped' =>
    obtain rfl := Except.ok.inj (hb.symm.trans hb')
    simp [hmapped] at hmapped'
  | segment hb' _ _ _ ht htfrom htto hbelow =>
    obtain rfl := Except.ok.inj (hb.symm.trans hb')
    obtain rfl := htable.unique ht hs htfrom htto hfrom hto
    exact hbelow

/-! ### The sectors of a range -/

def sectorsOf (extents : List Extent) : List (String × Nat) := Ranges.points (extents.map Extent.span)

theorem sectorsOf_append : sectorsOf (extents ++ result) = sectorsOf extents ++ sectorsOf result := by
  simp [sectorsOf, Ranges.points]

theorem mem_sectorsOf : p ∈ sectorsOf extents ↔ Allocated extents p.1 p.2 := Ranges.mem_points.trans allocated_iff

theorem length_sectorsOf : (sectorsOf extents).length = (extents.map (·.sectors.toNat)).sum := by
  simp [sectorsOf, Ranges.length_points, Extent.span, Function.comp_def]

def ResolvesPart (maps : Nat → String × Nat → Prop) (resolve : String → UInt64 → UInt64 → Except String (List Extent))
    (s : Segment) : Prop :=
  ∀ first target count resolved, s.start.toNat ≤ first → first + count.toNat ≤ s.start.toNat + s.sectors.toNat →
    target.toNat = s.offset.toNat + (first - s.start.toNat) → resolve s.device target count = .ok resolved →
    Ranges.Lists maps first count.toNat (sectorsOf resolved)

theorem toNat_max {a c : UInt64} : (max a c).toNat = max a.toNat c.toNat := by
  show (if a ≤ c then c else a).toNat = _
  split <;> rename_i h <;> rw [UInt64.le_iff_toNat_le] at h <;> omega

theorem toNat_min {a c : UInt64} : (min a c).toNat = min a.toNat c.toNat := by
  show (if a ≤ c then a else c).toNat = _
  split <;> rename_i h <;> rw [UInt64.le_iff_toNat_le] at h <;> omega

/-- The loop has listed the range up to the segment that is next. -/
theorem resolveSegments_lists {maps : Nat → String × Nat → Prop} {next size : Nat}
    (hparts : ∀ s ∈ segments, ResolvesPart maps resolve s) (htable : Contiguous next segments size)
    (hfilled : 0 < sectors.toNat) (hsize : start.toNat + sectors.toNat ≤ size)
    (hlists : Ranges.Lists maps start.toNat (max start.toNat (min next (start.toNat + sectors.toNat)) - start.toNat)
      (sectorsOf extents))
    (h : resolveSegments exactAdd resolve start sectors extents segments = .ok result) :
    Ranges.Lists maps start.toNat sectors.toNat (sectorsOf result) := by
  induction segments generalizing next extents with
  | nil =>
    obtain rfl := pure_ok.mp h
    have hnext : next = size := htable
    have hall : max start.toNat (min next (start.toNat + sectors.toNat)) - start.toNat = sectors.toNat := by omega
    rwa [hall] at hlists
  | cons s rest ih =>
    obtain ⟨hstart, hrest⟩ := htable
    obtain ⟨hpart, hparts⟩ := List.forall_mem_cons.mp hparts
    obtain ⟨stop, segmentStop, hstop, hsegmentStop, h⟩ := resolveSegments_cons_ok.mp h
    have hstop := exactAdd_toNat hstop
    have hsegmentStop := exactAdd_toNat hsegmentStop
    split at h
    · rename_i hskip
      rw [ge_iff_le, UInt64.le_iff_toNat_le, toNat_max, toNat_min, hstop, hsegmentStop] at hskip
      refine ih hparts hrest ?_ h
      convert hlists using 1
      omega
    · rename_i hmeets
      have hlt : (max start s.start).toNat < (min stop segmentStop).toNat := by
        rwa [ge_iff_le, UInt64.le_iff_toNat_le, Nat.not_le] at hmeets
      obtain ⟨-, target, htarget, resolved, hresolved, -, h⟩ := h
      have hcount := UInt64.toNat_sub_of_le _ _ (UInt64.le_iff_toNat_le.mpr hlt.le)
      have hoffset := UInt64.toNat_sub_of_le (max start s.start) s.start
        (UInt64.le_iff_toNat_le.mpr (toNat_max ▸ le_max_right _ _))
      rw [toNat_max, toNat_min, hstop, hsegmentStop] at hlt
      rw [toNat_max, toNat_min, hstop, hsegmentStop] at hcount
      rw [toNat_max] at hoffset
      have htarget := exactAdd_toNat htarget
      rw [hoffset] at htarget
      refine ih hparts hrest ?_ h
      have hlisted := hpart (max start.toNat s.start.toNat) target _ resolved (le_max_right _ _) (by omega) htarget hresolved
      rw [sectorsOf_append]
      have hplace : start.toNat + (max start.toNat (min next (start.toNat + sectors.toNat)) - start.toNat) =
          max start.toNat s.start.toNat := by omega
      rw [← hplace] at hlisted
      convert hlists.append hlisted using 1
      omega

theorem resolveRange_lists (h : resolveRange exactAdd backend depth visiting device start sectors = .ok result) :
    Ranges.Lists (MapsTo backend device) start.toNat sectors.toNat (sectorsOf result) := by
  induction depth generalizing visiting device start sectors result with
  | zero => simp [resolveRange] at h
  | succ depth ih =>
    obtain ⟨-, b, hb, ⟨hfilled, hrange⟩, h⟩ := resolveRange_ok.mp h
    obtain ⟨hend, -⟩ := range_end hrange
    split at h
    · rename_i hparent
      obtain ⟨-, offset, hoffset, h⟩ := h
      refine (ih h).move fun i hi p => ?_
      rw [exactAdd_toNat hoffset, Nat.add_assoc]
      exact MapsTo.partition_iff hb hparent (by omega)
    · rename_i hparent
      rw [ne_eq, not_not] at hparent
      split at h
      · rename_i hmapped
        subst h
        refine ⟨by simp [length_sectorsOf], fun i hi p => ?_⟩
        rw [MapsTo.physical_iff hb hparent (by simpa using hmapped) (by omega)]
        simp [sectorsOf, Ranges.points, Ranges.Span.points, Extent.span, hi]
      · rename_i hmapped
        obtain ⟨hvalid, h⟩ := h
        have htable := validateSegments_contiguous hvalid
        have hmapped : b.mapped = true := by simpa using hmapped
        have hparts : ∀ s ∈ b.segments,
            ResolvesPart (MapsTo backend device) (resolveRange exactAdd backend depth (device :: visiting)) s := by
          intro s hs first target count resolved hfirst hlast htarget hresolved
          refine (ih hresolved).move fun i hi p => ?_
          rw [MapsTo.segment_iff hb hparent hmapped htable hs (by omega) (by omega), htarget]
          have hplace : s.offset.toNat + (first + i - s.start.toNat) = s.offset.toNat + (first - s.start.toNat) + i := by omega
          rw [hplace]
        refine resolveSegments_lists hparts htable ?_ hend ?_ h
        · exact Nat.pos_of_ne_zero fun hzero => hfilled (UInt64.toNat_inj.mp hzero)
        · simp only [Nat.zero_min, Nat.max_zero, Nat.sub_self]
          exact Ranges.lists_nil

/-- Extent resolution is exact. When a device resolves, its extents hold exactly the physical sectors that its sectors map to;
    each of its sectors maps to one physical sector, two of them never to the same; the lengths of the extents sum to its
    size; and the resolution with sums that are refused when they wrap has the same result. -/
theorem resolution_exact (h : resolveDevice backend device = .ok extents) : ∃ b, backend device = .ok b ∧
    (∀ p : String × Nat, Allocated extents p.1 p.2 ↔ ∃ i < b.size.toNat, MapsTo backend device i p) ∧
    (∀ i < b.size.toNat, ∃! p, MapsTo backend device i p) ∧
    (∀ i < b.size.toNat, ∀ j < b.size.toNat, ∀ p, MapsTo backend device i p → MapsTo backend device j p → i = j) ∧
    (extents.map (·.sectors.toNat)).sum = b.size.toNat ∧
    resolveWith exactAdd backend device = .ok extents := by
  obtain ⟨b, hb, listed, hlisted, hnormalize⟩ := resolveDevice_ok.mp h
  have hlists : Ranges.Lists (MapsTo backend device) 0 b.size.toNat (sectorsOf listed) :=
    resolveRange_lists (resolveRange_exact hlisted)
  obtain ⟨-, -, hnormal⟩ := normalize_ok_iff.mp hnormalize
  have hnodup : (sectorsOf listed).Nodup := Ranges.nodup_points (List.pairwise_map.mpr hnormal.apart)
  have hnodup' : (sectorsOf extents).Nodup := Ranges.nodup_points (List.pairwise_map.mpr hnormal.result_apart)
  have hsame : ∀ p, p ∈ sectorsOf extents ↔ p ∈ sectorsOf listed := by
    intro p
    rw [mem_sectorsOf, mem_sectorsOf, hnormal.allocated]
  refine ⟨b, hb, ?_, ?_, ?_, ?_, resolveDevice_exact h⟩
  · intro p
    rw [← mem_sectorsOf, hsame, hlists.mem_iff]
    simp only [Nat.zero_add]
  · intro i hi
    simpa only [Nat.zero_add] using hlists.total hi
  · intro i hi j hj p hip hjp
    exact hlists.injective hnodup hi hj (by rwa [Nat.zero_add]) (by rwa [Nat.zero_add])
  · rw [← length_sectorsOf, ((List.perm_ext_iff_of_nodup hnodup' hnodup).mpr hsame).length_eq, hlists.1]

def assembled : Backend := fun device =>
  if device = "sda" then .ok ⟨100, "8:0", "", 0, false, []⟩
  else if device = "sdb" then .ok ⟨50, "8:16", "", 0, false, []⟩
  else if device = "dm-0" then .ok ⟨60, "", "", 0, true, [⟨0, 40, "sda", 10⟩, ⟨40, 20, "sdb", 0⟩]⟩
  else if device = "dm-0p1" then .ok ⟨30, "", "dm-0", 20, false, []⟩
  else .error "no such device"

theorem resolution_exact_assembled : resolveDevice assembled "dm-0p1" = .ok [⟨"8:0", 30, 20⟩, ⟨"8:16", 0, 10⟩] ∧
    ∃ i < 30, MapsTo assembled "dm-0p1" i ("8:16", 5) := by
  have hresolved : resolveDevice assembled "dm-0p1" = .ok [⟨"8:0", 30, 20⟩, ⟨"8:16", 0, 10⟩] := by decide +kernel
  obtain ⟨b, hb, hcovers, -⟩ := resolution_exact hresolved
  have hdevice : assembled "dm-0p1" = .ok ⟨30, "", "dm-0", 20, false, []⟩ := by decide +kernel
  obtain rfl := Except.ok.inj (hdevice.symm.trans hb)
  exact ⟨hresolved, (hcovers ("8:16", 5)).mp ⟨⟨"8:16", 0, 10⟩, by simp, rfl, by decide, by decide⟩⟩

end ShiftPV

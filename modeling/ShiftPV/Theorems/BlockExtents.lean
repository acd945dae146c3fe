import ShiftPV.BlockResolver
import ShiftPV.Theorems.ExtentForm

/-! The resolved extents are the image of the device. No sum of a successful resolution wraps, so that it can be read with
    exact sums. -/

namespace ShiftPV
open Check

variable {backend : Backend} {device : String} {start sectors stop : UInt64} {segments : List Segment} {s : Segment} {b : Block}
  {extents result normalized rest : List Extent} {visiting : List String} {depth : Nat} {p : String × Nat}
  {resolve resolve' : String → UInt64 → UInt64 → Except String (List Extent)}

/-! ### Sums -/

theorem exactAdd_ok {a c sum : UInt64} : exactAdd a c = .ok sum ↔ a.toNat + c.toNat < 2 ^ 64 ∧ a + c = sum := by
  rw [exactAdd, seq_ok, require_ok, pure_ok]

theorem exactAdd_toNat {a c sum : UInt64} (h : exactAdd a c = .ok sum) : sum.toNat = a.toNat + c.toNat := by
  obtain ⟨hfits, rfl⟩ := exactAdd_ok.mp h
  rw [UInt64.toNat_add, Nat.mod_eq_of_lt hfits]

theorem exactAdd_checked {a c : UInt64} (h : c ≤ maxUint64 - a) : exactAdd a c = .ok (a + c) := by
  have hmax : maxUint64.toNat = 2 ^ 64 - 1 := rfl
  have ha := a.toNat_lt
  have hroom : a ≤ maxUint64 := by rw [UInt64.le_iff_toNat_le, hmax]; omega
  rw [UInt64.le_iff_toNat_le, UInt64.toNat_sub_of_le _ _ hroom, hmax] at h
  exact exactAdd_ok.mpr ⟨by omega, rfl⟩

theorem machineAdd_ok {a c sum : UInt64} : machineAdd a c = .ok sum ↔ a + c = sum := pure_ok

def Contiguous : Nat → List Segment → Nat → Prop
  | stop, [], size => stop = size
  | stop, s :: rest, size => s.start.toNat = stop ∧ Contiguous (stop + s.sectors.toNat) rest size

theorem validateSegmentsFrom_exact (h : validateSegmentsFrom machineAdd start segments = .ok stop) :
    validateSegmentsFrom exactAdd start segments = .ok stop := by
  induction segments generalizing start with
  | nil => exact h
  | cons s rest ih =>
    rw [validateSegmentsFrom, seq_ok, require_ok, bind_ok] at h ⊢
    obtain ⟨hvalid, next, hnext, h⟩ := h
    obtain rfl := machineAdd_ok.mp hnext
    exact ⟨hvalid, _, exactAdd_checked hvalid.2.2.1, ih h⟩

theorem validateSegments_exact (h : validateSegments machineAdd b = .ok ()) : validateSegments exactAdd b = .ok () := by
  rw [validateSegments, seq_ok, bind_ok] at h ⊢
  obtain ⟨hbounded, stop, hstop, hcovers⟩ := h
  exact ⟨hbounded, stop, validateSegmentsFrom_exact hstop, hcovers⟩

theorem validateSegmentsFrom_contiguous (h : validateSegmentsFrom exactAdd start segments = .ok stop) :
    Contiguous start.toNat segments stop.toNat := by
  induction segments generalizing start with
  | nil =>
    obtain rfl := pure_ok.mp h
    exact rfl
  | cons s rest ih =>
    rw [validateSegmentsFrom, seq_ok, require_ok, bind_ok] at h
    obtain ⟨hvalid, next, hnext, h⟩ := h
    refine ⟨by rw [hvalid.1], ?_⟩
    rw [← exactAdd_toNat hnext]
    exact ih h

theorem validateSegments_contiguous (h : validateSegments exactAdd b = .ok ()) : Contiguous 0 b.segments b.size.toNat := by
  rw [validateSegments, seq_ok, bind_ok] at h
  obtain ⟨-, stop, hstop, hcovers⟩ := h
  obtain rfl := require_ok.mp hcovers
  exact validateSegmentsFrom_contiguous hstop

theorem Contiguous.le {first size : Nat} (h : Contiguous first segments size) : first ≤ size := by
  induction segments generalizing first with
  | nil => exact le_of_eq h
  | cons s rest ih => exact (Nat.le_add_right _ _).trans (ih h.2)

theorem Contiguous.bounds {first size : Nat} (h : Contiguous first segments size) (hs : s ∈ segments) :
    first ≤ s.start.toNat ∧ s.start.toNat + s.sectors.toNat ≤ size := by
  induction segments generalizing first with
  | nil => simp at hs
  | cons t rest ih =>
    obtain ⟨hstart, hrest⟩ := h
    have hle := hrest.le
    rcases List.mem_cons.mp hs with rfl | hs
    · omega
    · have := ih hrest hs
      omega

theorem resolveSegments_cons_ok {add : Adder} : resolveSegments add resolve start sectors extents (s :: segments) = .ok result ↔
    ∃ stop segmentStop, add start sectors = .ok stop ∧ add s.start s.sectors = .ok segmentStop ∧
      if max start s.start ≥ min stop segmentStop then resolveSegments add resolve start sectors extents segments = .ok result
      else max start s.start - s.start ≤ maxUint64 - s.offset ∧ ∃ target, add s.offset (max start s.start - s.start) = .ok target ∧
        ∃ resolved, resolve s.device target (min stop segmentStop - max start s.start) = .ok resolved ∧
          (extents ++ resolved).length ≤ maxExtents ∧
          resolveSegments add resolve start sectors (extents ++ resolved) segments = .ok result := by
  rw [resolveSegments, bind_ok]
  refine exists_congr fun stop => ?_
  rw [bind_ok, ← exists_and_left]
  refine exists_congr fun segmentStop => and_congr_right fun _ => and_congr_right fun _ => ?_
  simp only
  split
  · rfl
  · simp only [require_ok, bind_ok, exists_const]

theorem resolveSegments_exact (hresolve : ∀ device start sectors result, resolve device start sectors = .ok result →
      resolve' device start sectors = .ok result) (hrange : start.toNat + sectors.toNat < 2 ^ 64)
    (hsegments : ∀ s ∈ segments, s.start.toNat + s.sectors.toNat < 2 ^ 64)
    (h : resolveSegments machineAdd resolve start sectors extents segments = .ok result) :
    resolveSegments exactAdd resolve' start sectors extents segments = .ok result := by
  induction segments generalizing extents with
  | nil => exact h
  | cons s rest ih =>
    obtain ⟨hs, hrest⟩ := List.forall_mem_cons.mp hsegments
    obtain ⟨stop, segmentStop, hstop, hsegmentStop, h⟩ := resolveSegments_cons_ok.mp h
    obtain rfl := machineAdd_ok.mp hstop
    obtain rfl := machineAdd_ok.mp hsegmentStop
    refine resolveSegments_cons_ok.mpr ⟨_, _, exactAdd_ok.mpr ⟨hrange, rfl⟩, exactAdd_ok.mpr ⟨hs, rfl⟩, ?_⟩
    split at h
    · rename_i hskip
      rw [if_pos hskip]
      exact ih hrest h
    · rename_i hskip
      rw [if_neg hskip]
      obtain ⟨hroom, target, htarget, resolved, hresolved, hlength, h⟩ := h
      obtain rfl := machineAdd_ok.mp htarget
      exact ⟨hroom, _, exactAdd_checked hroom, resolved, hresolve _ _ _ _ hresolved, hlength, ih hrest h⟩

theorem resolveRange_ok {add : Adder} : resolveRange add backend (depth + 1) visiting device start sectors = .ok result ↔
    device ∉ visiting ∧ ∃ b, backend device = .ok b ∧ (sectors ≠ 0 ∧ start ≤ b.size ∧ sectors ≤ b.size - start) ∧
      if b.parent ≠ "" then start ≤ maxUint64 - b.start ∧ ∃ offset, add b.start start = .ok offset ∧
        resolveRange add backend depth (device :: visiting) b.parent offset sectors = .ok result
      else if ¬b.mapped then [⟨if b.identity = "" then device else b.identity, start, sectors⟩] = result
      else validateSegments add b = .ok () ∧
        resolveSegments add (resolveRange add backend depth (device :: visiting)) start sectors [] b.segments = .ok result := by
  rw [resolveRange, seq_ok, require_ok, bind_ok]
  refine and_congr_right fun _ => exists_congr fun b => and_congr_right fun _ => ?_
  rw [seq_ok, require_ok]
  refine and_congr_right fun _ => ?_
  split
  · simp only [require_ok, bind_ok, exists_const]
  · split
    · exact pure_ok
    · rw [seq_ok]

theorem range_end {size : UInt64} (h : start ≤ size ∧ sectors ≤ size - start) :
    start.toNat + sectors.toNat ≤ size.toNat ∧ size.toNat < 2 ^ 64 := by
  have hstart := UInt64.le_iff_toNat_le.mp h.1
  have hsectors := UInt64.le_iff_toNat_le.mp h.2
  rw [UInt64.toNat_sub_of_le _ _ h.1] at hsectors
  exact ⟨by omega, size.toNat_lt⟩

theorem resolveRange_exact (h : resolveRange machineAdd backend depth visiting device start sectors = .ok result) :
    resolveRange exactAdd backend depth visiting device start sectors = .ok result := by
  induction depth generalizing visiting device start sectors result with
  | zero => simp [resolveRange] at h
  | succ depth ih =>
    obtain ⟨hfresh, b, hb, hrange, h⟩ := resolveRange_ok.mp h
    refine resolveRange_ok.mpr ⟨hfresh, b, hb, hrange, ?_⟩
    split at h
    · rename_i hparent
      rw [if_pos hparent]
      obtain ⟨hroom, offset, hoffset, h⟩ := h
      obtain rfl := machineAdd_ok.mp hoffset
      exact ⟨hroom, _, exactAdd_checked hroom, ih h⟩
    · rename_i hparent
      rw [if_neg hparent]
      split at h
      · rename_i hmapped
        rw [if_pos hmapped]
        exact h
      · rename_i hmapped
        rw [if_neg hmapped]
        have hvalid := validateSegments_exact h.1
        obtain ⟨hend, hsize⟩ := range_end hrange.2
        refine ⟨hvalid, resolveSegments_exact (fun _ _ _ _ => ih) (by omega) (fun s hs => ?_) h.2⟩
        have := ((validateSegments_contiguous hvalid).bounds hs).2
        omega

/-! ### Normalization -/

theorem normalizeOntoWith_machine : normalizeOntoWith machineAdd normalized rest = normalizeOnto normalized rest := by
  induction rest generalizing normalized with
  | nil => rfl
  | cons e rest ih =>
    cases normalized with
    | nil =>
      rw [normalizeOntoWith, normalizeOnto]
      simp only [ih]
    | cons previous before =>
      rw [normalizeOntoWith, normalizeOnto]
      simp only [ih, machineAdd, pure_bind]

theorem normalizeOntoWith_exact (hnormalized : ∀ e ∈ normalized, e.Valid)
    (h : normalizeOnto normalized rest = .ok result) : normalizeOntoWith exactAdd normalized rest = .ok result := by
  induction rest generalizing normalized with
  | nil => exact h
  | cons e rest ih =>
    have hvalid := normalizeOnto_validates h e (by simp)
    have he := Extent.validate_iff.mp hvalid
    cases normalized with
    | nil =>
      rw [normalizeOnto, seq_ok] at h
      rw [normalizeOntoWith, seq_ok]
      exact ⟨hvalid, ih (by simpa using he) h.2⟩
    | cons previous before =>
      obtain ⟨hprevious, hbefore⟩ := List.forall_mem_cons.mp hnormalized
      rw [normalizeOnto, seq_ok] at h
      rw [normalizeOntoWith, seq_ok]
      refine ⟨hvalid, ?_⟩
      have hsum := exactAdd_ok.mpr ⟨hprevious.bounded, rfl⟩
      have h := h.2
      split at h
      · rename_i hdevice
        rw [seq_ok, require_ok] at h
        obtain ⟨hapart, h⟩ := h
        rw [if_pos hdevice, hsum]
        simp only [bind, Except.bind, require_of hapart]
        split at h
        · rename_i hjoins
          obtain ⟨hlonger, -⟩ := hprevious.extend he hjoins
          have hbounded := he.bounded
          have hstart : e.start.toNat = previous.start.toNat + previous.sectors.toNat := by rw [hjoins, hprevious.end_eq]; rfl
          have hsectors : exactAdd previous.sectors e.sectors = .ok (previous.sectors + e.sectors) :=
            exactAdd_ok.mpr ⟨by omega, rfl⟩
          rw [if_pos hjoins, hsectors]
          exact ih (List.forall_mem_cons.mpr ⟨hlonger, hbefore⟩) h
        · rename_i hjoins
          rw [if_neg hjoins]
          exact ih (List.forall_mem_cons.mpr ⟨he, hnormalized⟩) h
      · rename_i hdevice
        rw [if_neg hdevice]
        exact ih (List.forall_mem_cons.mpr ⟨he, hnormalized⟩) h

theorem normalizeWith_machine : normalizeWith machineAdd extents = normalize extents := by
  rw [normalizeWith, normalize, normalizeOntoWith_machine]

theorem resolveDevice_ok : resolveDevice backend device = .ok result ↔ ∃ b, backend device = .ok b ∧
    ∃ extents, resolveRange machineAdd backend maxDepth [] device 0 b.size = .ok extents ∧ normalize extents = .ok result := by
  simp only [resolveDevice, resolveWith, bind_ok, normalizeWith_machine]

theorem resolveDevice_exact (h : resolveDevice backend device = .ok result) : resolveWith exactAdd backend device = .ok result := by
  obtain ⟨b, hb, extents, hextents, h⟩ := resolveDevice_ok.mp h
  rw [normalize, seq_ok] at h
  refine bind_ok.mpr ⟨b, hb, bind_ok.mpr ⟨extents, resolveRange_exact hextents, ?_⟩⟩
  rw [normalizeWith, seq_ok]
  exact ⟨h.1, normalizeOntoWith_exact (by simp) h.2⟩

end ShiftPV

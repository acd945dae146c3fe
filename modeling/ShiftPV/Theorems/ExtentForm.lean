import Mathlib.Data.String.Basic
import ShiftPV.Lib.Ranges
import ShiftPV.Theorems.PoolIsolation

/-! Normalized extents are canonical: the result is determined by the allocated sectors alone, not by the order of the input.
    -/

namespace ShiftPV
open Check

variable {e previous : Extent} {extents extents' sorted normalized rest left right result : List Extent} {device : String}
  {sector : Nat}

/-! ### Spans -/

def Extent.span (e : Extent) : Ranges.Span String := ⟨e.device, e.start.toNat, e.start.toNat + e.sectors.toNat⟩

theorem Extent.span_holds : e.span.Holds (device, sector) ↔ e.Covers device sector := Iff.rfl

theorem Extent.span_injective : Function.Injective Extent.span := by
  rintro ⟨device, start, sectors⟩ ⟨device', start', sectors'⟩ h
  simp only [Extent.span, Ranges.Span.mk.injEq] at h
  obtain ⟨rfl, hstart, hsectors⟩ := h
  obtain rfl : start = start' := UInt64.toNat_inj.mp hstart
  obtain rfl : sectors = sectors' := UInt64.toNat_inj.mp (by omega)
  rfl

def Allocated (extents : List Extent) (device : String) (sector : Nat) : Prop := ∃ e ∈ extents, e.Covers device sector

theorem allocated_iff : Ranges.Holds (extents.map Extent.span) (device, sector) ↔ Allocated extents device sector := by
  simp [Ranges.Holds, Allocated, Extent.span_holds]

structure Extent.Valid (e : Extent) : Prop where
  identity : validateBackingIdentity e.device = .ok ()
  filled : 0 < e.sectors.toNat
  bounded : e.start.toNat + e.sectors.toNat < 2 ^ 64

theorem Extent.validate_iff : e.validate = .ok () ↔ e.Valid := by
  have hmax : maxUint64.toNat = 2 ^ 64 - 1 := rfl
  have hstart := e.start.toNat_lt
  have hroom : e.start ≤ maxUint64 := by rw [UInt64.le_iff_toNat_le, hmax]; omega
  have hfilled : e.sectors ≠ 0 ↔ 0 < e.sectors.toNat := by
    rw [Nat.pos_iff_ne_zero, ne_eq, ne_eq, ← UInt64.toNat_inj]
    rfl
  rw [Extent.validate, seq_ok, require_ok, UInt64.le_iff_toNat_le, UInt64.toNat_sub_of_le _ _ hroom, hmax, hfilled]
  constructor
  · rintro ⟨hidentity, hfilled, hbound⟩
    exact ⟨hidentity, hfilled, by omega⟩
  · rintro ⟨hidentity, hfilled, hbound⟩
    exact ⟨hidentity, hfilled, by omega⟩

theorem Extent.Valid.end_eq (h : e.Valid) : (e.start + e.sectors).toNat = e.span.hi := by
  have hbounded := h.bounded
  rw [UInt64.toNat_add, Nat.mod_eq_of_lt hbounded]
  rfl

theorem Extent.before_iff {a b : Extent} : a.before b ↔ a.span.Before b.span := by
  simp [Extent.before, Ranges.Span.Before, Extent.span, UInt64.le_iff_toNat_le]

/-! ### The loop -/

theorem Extent.Valid.extend (h : previous.Valid) (he : e.Valid) (hadjacent : e.start = previous.start + previous.sectors) :
    Extent.Valid { previous with sectors := previous.sectors + e.sectors } ∧
      Extent.span { previous with sectors := previous.sectors + e.sectors } = { previous.span with hi := e.span.hi } := by
  have hstart : e.start.toNat = previous.start.toNat + previous.sectors.toNat := by rw [hadjacent, h.end_eq]; rfl
  have hbounded := he.bounded
  have hfilled := h.filled
  have hsum : (previous.sectors + e.sectors).toNat = previous.sectors.toNat + e.sectors.toNat := by
    rw [UInt64.toNat_add, Nat.mod_eq_of_lt (by omega)]
  refine ⟨⟨h.identity, ?_, ?_⟩, ?_⟩
  · show 0 < (previous.sectors + e.sectors).toNat
    omega
  · show previous.start.toNat + (previous.sectors + e.sectors).toNat < 2 ^ 64
    omega
  · simp only [Extent.span, Ranges.Span.mk.injEq, true_and]
    omega

theorem normalizeOnto_join (hnormalized : ∀ e ∈ normalized, e.Valid) (hrest : ∀ e ∈ rest, e.Valid) :
    (normalizeOnto normalized rest).toOption.map (·.map Extent.span) =
      Ranges.joinOnto (normalized.map Extent.span) (rest.map Extent.span) := by
  induction rest generalizing normalized with
  | nil => simp [normalizeOnto, Ranges.joinOnto, Except.toOption, pure, Except.pure]
  | cons e rest ih =>
    obtain ⟨he, hrest⟩ := List.forall_mem_cons.mp hrest
    have hvalid := Extent.validate_iff.mpr he
    cases normalized with
    | nil =>
      rw [normalizeOnto, hvalid]
      exact ih (by simpa using he) hrest
    | cons previous before =>
      obtain ⟨hprevious, hbefore⟩ := List.forall_mem_cons.mp hnormalized
      have hpush := ih (List.forall_mem_cons.mpr ⟨he, hnormalized⟩) hrest
      have hmeets : e.start < previous.start + previous.sectors ↔ e.span.lo < previous.span.hi := by
        rw [UInt64.lt_iff_toNat_lt, hprevious.end_eq]
        rfl
      have hadjacent : e.start = previous.start + previous.sectors ↔ e.span.lo = previous.span.hi := by
        rw [← UInt64.toNat_inj, hprevious.end_eq]
        rfl
      rw [List.map_cons, List.map_cons, Ranges.joinOnto]
      by_cases hdevice : previous.device = e.device
      · rw [if_pos (show previous.span.axis = e.span.axis from hdevice)]
        by_cases hover : e.span.lo < previous.span.hi
        · have hrefused : ∃ error, normalizeOnto (previous :: before) (e :: rest) = .error error := by
            cases hresult : normalizeOnto (previous :: before) (e :: rest) with
            | error error => exact ⟨error, rfl⟩
            | ok result =>
              rw [normalizeOnto, seq_ok, if_pos hdevice, seq_ok, require_ok] at hresult
              exact absurd hresult.2.1 (UInt64.not_le.mpr (hmeets.mpr hover))
          obtain ⟨error, hrefused⟩ := hrefused
          rw [hrefused, if_pos hover]
          rfl
        · have hapart : previous.start + previous.sectors ≤ e.start := UInt64.not_lt.mp fun h => hover (hmeets.mp h)
          rw [normalizeOnto, hvalid, if_neg hover]
          simp only [bind, Except.bind, if_pos hdevice, require_of hapart]
          by_cases hjoins : e.start = previous.start + previous.sectors
          · obtain ⟨hlonger, hspan⟩ := hprevious.extend he hjoins
            rw [if_pos hjoins, if_pos (hadjacent.mp hjoins), ← hspan]
            exact ih (List.forall_mem_cons.mpr ⟨hlonger, hbefore⟩) hrest
          · rw [if_neg hjoins, if_neg fun h => hjoins (hadjacent.mpr h)]
            exact hpush
      · rw [normalizeOnto, hvalid, if_neg (show ¬previous.span.axis = e.span.axis from hdevice)]
        simp only [bind, Except.bind, if_neg hdevice]
        exact hpush

/-! ### Normalization -/

/-- What a sort may return: the extents in order, those with one start in any order. -/
structure SortedExtents (extents sorted : List Extent) : Prop where
  perm : sorted.Perm extents
  ordered : sorted.Pairwise fun a b => a.before b

theorem sortedExtents_insertionSort (extents : List Extent) :
    SortedExtents extents (extents.insertionSort fun a b => a.before b) := by
  refine ⟨List.perm_insertionSort _ _, ?_⟩
  have htotal : Std.Total fun a b : Extent => (a.before b : Prop) :=
    ⟨fun a b => by simpa only [Extent.before_iff] using Ranges.Span.before_total a.span b.span⟩
  have htrans : IsTrans Extent fun a b => (a.before b : Prop) :=
    ⟨fun a b c => by simpa only [Extent.before_iff] using Ranges.Span.Before.trans⟩
  exact List.pairwise_insertionSort _ _

def ApartExtents (extents : List Extent) : Prop := extents.Pairwise fun a b => a.span.Apart b.span

theorem ApartExtents.perm (h : ApartExtents extents) (hperm : extents'.Perm extents) : ApartExtents extents' :=
  (hperm.pairwise_iff fun hapart => hapart.symm).mpr h

theorem SortedExtents.joins (h : SortedExtents extents sorted) (hvalid : ∀ e ∈ sorted, e.Valid) :
    Ranges.Joins [] (sorted.map Extent.span) := by
  refine Ranges.joins_sorted (List.pairwise_map.mpr (h.ordered.imp fun hab => Extent.before_iff.mp hab)) ?_
  intro s hs
  obtain ⟨e, he, rfl⟩ := List.mem_map.mp hs
  have hfilled := (hvalid e he).filled
  show e.start.toNat < e.start.toNat + e.sectors.toNat
  omega

theorem normalizeOnto_nil (hvalid : ∀ e ∈ sorted, e.Valid) :
    (normalizeOnto [] sorted).toOption.map (·.map Extent.span) = Ranges.joinOnto [] (sorted.map Extent.span) :=
  normalizeOnto_join (by simp) hvalid

/-- The extents as a list in canonical form, with the sectors of `extents`. -/
structure NormalForm (extents result : List Extent) : Prop where
  valid : ∀ e ∈ extents, e.Valid
  apart : ApartExtents extents
  canonical : Ranges.Canonical (result.map Extent.span)
  allocated : ∀ device sector, Allocated result device sector ↔ Allocated extents device sector
  short : result.length ≤ extents.length

theorem normalizeOnto_sound (hsorted : SortedExtents extents sorted) (h : normalizeOnto [] sorted = .ok result) :
    NormalForm extents result := by
  have hvalid : ∀ e ∈ sorted, e.Valid := fun e he => Extent.validate_iff.mp (normalizeOnto_validates h e he)
  have hjoin := normalizeOnto_nil hvalid
  rw [h] at hjoin
  obtain ⟨hsound, hcomplete⟩ := hsorted.joins hvalid
  obtain ⟨hcanonical, hpoints⟩ := hsound _ hjoin.symm
  obtain ⟨hapart, -⟩ := hcomplete.mp ⟨_, hjoin.symm⟩
  refine ⟨fun e he => hvalid e (hsorted.perm.mem_iff.mpr he), ?_, hcanonical, fun device sector => ?_, ?_⟩
  · exact ApartExtents.perm (List.pairwise_map.mp hapart) hsorted.perm.symm
  · rw [← allocated_iff, hpoints, or_iff_right Ranges.holds_nil, allocated_iff]
    simp only [Allocated, hsorted.perm.mem_iff]
  · have hlength := Ranges.joinOnto_length hjoin.symm
    rw [List.length_map, List.length_nil, zero_add, List.length_map, hsorted.perm.length_eq] at hlength
    exact hlength

theorem normalizeOnto_complete (hsorted : SortedExtents extents sorted) (hvalid : ∀ e ∈ extents, e.Valid)
    (hapart : ApartExtents extents) : ∃ result, normalizeOnto [] sorted = .ok result := by
  have hvalid : ∀ e ∈ sorted, e.Valid := fun e he => hvalid e (hsorted.perm.mem_iff.mp he)
  obtain ⟨joined, hjoined⟩ := (hsorted.joins hvalid).complete.mpr
    ⟨List.pairwise_map.mpr (hapart.perm hsorted.perm), by simp⟩
  have hjoin := normalizeOnto_nil hvalid
  cases hresult : normalizeOnto [] sorted with
  | ok result => exact ⟨result, rfl⟩
  | error e =>
    rw [hresult, hjoined] at hjoin
    simp [Except.toOption] at hjoin

theorem NormalForm.unique (h : NormalForm extents result) {result' : List Extent} (h' : NormalForm extents' result')
    (hsame : ∀ device sector, Allocated extents device sector ↔ Allocated extents' device sector) : result = result' := by
  refine (List.map_inj_right Extent.span_injective).mp (h.canonical.ext h'.canonical ?_)
  rintro ⟨device, sector⟩
  rw [allocated_iff, allocated_iff, h.allocated, h'.allocated, hsame]

theorem NormalForm.result_valid (h : NormalForm extents result) : ∀ e ∈ result, e.Valid := by
  intro e he
  have hfilled : e.span.lo < e.span.hi := h.canonical.filled _ (List.mem_map_of_mem he)
  simp only [Extent.span] at hfilled
  -- its last sector is one of a valid extent
  obtain ⟨source, hsource, hdevice, -, hend⟩ := (h.allocated e.device (e.start.toNat + e.sectors.toNat - 1)).mp
    ⟨e, he, rfl, by omega, by omega⟩
  obtain ⟨hidentity, -, hbounded⟩ := h.valid source hsource
  exact ⟨hdevice ▸ hidentity, by omega, by omega⟩

theorem NormalForm.result_apart (h : NormalForm extents result) : ApartExtents result := by
  have hjoins := Ranges.joins_sorted h.canonical.sorted h.canonical.filled
  exact List.pairwise_map.mp (hjoins.complete.mp ⟨_, h.canonical.joinOnto⟩).1

theorem NormalForm.self (h : NormalForm extents result) : NormalForm result result :=
  ⟨h.result_valid, h.result_apart, h.canonical, fun _ _ => Iff.rfl, le_rfl⟩

theorem NormalForm.perm (h : NormalForm extents result) (hperm : extents'.Perm extents) : NormalForm extents' result :=
  ⟨fun e he => h.valid e (hperm.mem_iff.mp he), h.apart.perm hperm, h.canonical,
    fun device sector => by rw [h.allocated]; simp only [Allocated, hperm.mem_iff], hperm.length_eq ▸ h.short⟩

theorem NormalForm.ne_nil (h : NormalForm extents result) (hne : extents ≠ []) : result ≠ [] := by
  rintro rfl
  obtain ⟨e, he⟩ := List.exists_mem_of_ne_nil _ hne
  have hfilled := (h.valid e he).filled
  obtain ⟨first, hfirst, -⟩ := (h.allocated e.device e.start.toNat).mpr ⟨e, he, rfl, le_rfl, by omega⟩
  simp at hfirst

theorem normalize_ok_iff : normalize extents = .ok result ↔
    extents ≠ [] ∧ extents.length ≤ maxExtents ∧ NormalForm extents result := by
  have hsorted := sortedExtents_insertionSort extents
  rw [normalize, seq_ok, require_ok, and_assoc]
  refine and_congr_right fun _ => and_congr_right fun _ => ⟨normalizeOnto_sound hsorted, fun h => ?_⟩
  obtain ⟨result', hresult'⟩ := normalizeOnto_complete hsorted h.valid h.apart
  rw [hresult', h.unique (normalizeOnto_sound hsorted hresult') fun _ _ => Iff.rfl]

/-! ### Overlap -/

theorem Extent.Valid.meets_iff {a b : Extent} (ha : a.Valid) (hb : b.Valid) :
    a.meets b ↔ ∃ device sector, a.Covers device sector ∧ b.Covers device sector := by
  have hafilled := ha.filled
  have hbfilled := hb.filled
  simp only [Extent.meets, Bool.and_eq_true, decide_eq_true_eq, UInt64.lt_iff_toNat_lt, ha.end_eq, hb.end_eq, Extent.span,
    Extent.Covers]
  constructor
  · rintro ⟨⟨hdevice, hab⟩, hba⟩
    exact ⟨a.device, max a.start.toNat b.start.toNat, ⟨rfl, by omega, by omega⟩, hdevice.symm, by omega, by omega⟩
  · rintro ⟨device, sector, ⟨rfl, hastart, haend⟩, hdevice, hbstart, hbend⟩
    exact ⟨⟨hdevice.symm, by omega⟩, by omega⟩

def ShareSector (left right : List Extent) : Prop := ∃ device sector, Allocated left device sector ∧ Allocated right device sector

theorem ShareSector.symm (h : ShareSector left right) : ShareSector right left := by
  obtain ⟨device, sector, hleft, hright⟩ := h
  exact ⟨device, sector, hright, hleft⟩

theorem overlap_ok_iff {answer : Bool} : overlap left right = .ok answer ↔
    (∃ l, normalize left = .ok l) ∧ (∃ r, normalize right = .ok r) ∧ (answer = true ↔ ShareSector left right) := by
  have hmeets : ∀ {l r}, normalize left = .ok l → normalize right = .ok r →
      ((l.any fun a => r.any a.meets) = true ↔ ShareSector left right) := by
    intro l r hl hr
    have hleft := (normalize_ok_iff.mp hl).2.2
    have hright := (normalize_ok_iff.mp hr).2.2
    have hshare : ShareSector left right ↔ ShareSector l r := by simp only [ShareSector, hleft.allocated, hright.allocated]
    rw [hshare, List.any_eq_true]
    simp only [List.any_eq_true]
    constructor
    · rintro ⟨a, ha, b, hb, hab⟩
      obtain ⟨device, sector, hacovers, hbcovers⟩ :=
        ((hleft.result_valid a ha).meets_iff (hright.result_valid b hb)).mp hab
      exact ⟨device, sector, ⟨a, ha, hacovers⟩, b, hb, hbcovers⟩
    · rintro ⟨device, sector, ⟨a, ha, hacovers⟩, b, hb, hbcovers⟩
      exact ⟨a, ha, b, hb, ((hleft.result_valid a ha).meets_iff (hright.result_valid b hb)).mpr
        ⟨device, sector, hacovers, hbcovers⟩⟩
  rw [overlap, bind_ok]
  constructor
  · rintro ⟨l, hl, h⟩
    rw [bind_ok] at h
    obtain ⟨r, hr, h⟩ := h
    exact ⟨⟨l, hl⟩, ⟨r, hr⟩, by rw [← pure_ok.mp h, hmeets hl hr]⟩
  · rintro ⟨⟨l, hl⟩, ⟨r, hr⟩, hanswer⟩
    refine ⟨l, hl, bind_ok.mpr ⟨r, hr, pure_ok.mpr ?_⟩⟩
    rw [Bool.eq_iff_iff, hmeets hl hr, hanswer]

/-! ### Splitting -/

/-- The two parts of an extent that is cut after its first `k` sectors. -/
def Extent.split (e : Extent) (k : UInt64) : List Extent :=
  [{ e with sectors := k }, { e with start := e.start + k, sectors := e.sectors - k }]

structure Extent.Cut (e : Extent) (k : UInt64) (head tail : Extent) : Prop where
  split : e.split k = [head, tail]
  headValid : head.Valid
  tailValid : tail.Valid
  apart : head.span.Apart tail.span
  holds : ∀ p, e.span.Holds p ↔ head.span.Holds p ∨ tail.span.Holds p

theorem Extent.Valid.cut (h : e.Valid) {k : UInt64} (hk : 0 < k) (hlt : k < e.sectors) : ∃ head tail, e.Cut k head tail := by
  have hk' : 0 < k.toNat := UInt64.lt_iff_toNat_lt.mp hk
  have hlt' := UInt64.lt_iff_toNat_lt.mp hlt
  have hbounded := h.bounded
  have hstart : (e.start + k).toNat = e.start.toNat + k.toNat := by
    rw [UInt64.toNat_add, Nat.mod_eq_of_lt (by omega)]
  have hsectors : (e.sectors - k).toNat = e.sectors.toNat - k.toNat :=
    UInt64.toNat_sub_of_le _ _ (UInt64.le_iff_toNat_le.mpr (by omega))
  refine ⟨_, _, rfl, ⟨h.identity, hk', ?_⟩, ⟨h.identity, ?_, ?_⟩, ?_, ?_⟩
  · show e.start.toNat + k.toNat < 2 ^ 64
    omega
  · show 0 < (e.sectors - k).toNat
    omega
  · show (e.start + k).toNat + (e.sectors - k).toNat < 2 ^ 64
    omega
  · rintro p ⟨⟨-, -, hto⟩, -, hfrom, -⟩
    simp only [Extent.span, hstart] at hto hfrom
    omega
  · intro p
    simp only [Extent.span, Ranges.Span.Holds, hstart, hsectors]
    constructor
    · rintro ⟨haxis, hfrom, hto⟩
      by_cases hp : p.2 < e.start.toNat + k.toNat
      · exact .inl ⟨haxis, hfrom, hp⟩
      · exact .inr ⟨haxis, by omega, by omega⟩
    · rintro (⟨haxis, hfrom, hto⟩ | ⟨haxis, hfrom, hto⟩)
      · exact ⟨haxis, hfrom, by omega⟩
      · exact ⟨haxis, by omega, by omega⟩

theorem NormalForm.split {before after : List Extent} {k : UInt64} (h : NormalForm (before ++ e :: after) result) (hk : 0 < k)
    (hlt : k < e.sectors) : NormalForm (before ++ e.split k ++ after) result := by
  obtain ⟨head, tail, hcut⟩ := (h.valid e (by simp)).cut hk hlt
  have hperm : (before ++ [head, tail] ++ after).Perm (head :: tail :: (before ++ after)) := by
    rw [List.append_assoc]
    exact List.perm_append_comm_assoc before [head, tail] after
  have hshort := h.short
  rw [hcut.split]
  refine NormalForm.perm ⟨?_, ?_, h.canonical, fun device sector => ?_, ?_⟩ hperm
  · refine List.forall_mem_cons.mpr ⟨hcut.headValid, List.forall_mem_cons.mpr ⟨hcut.tailValid, fun f hf => h.valid f ?_⟩⟩
    rcases List.mem_append.mp hf with hf | hf <;> simp [hf]
  · obtain ⟨hothers, hrest⟩ := List.pairwise_cons.mp (h.apart.perm List.perm_middle.symm)
    refine List.pairwise_cons.mpr ⟨List.forall_mem_cons.mpr ⟨hcut.apart, fun f hf p hp => ?_⟩,
      List.pairwise_cons.mpr ⟨fun f hf p hp => ?_, hrest⟩⟩
    · exact hothers f hf p ⟨(hcut.holds p).mpr (.inl hp.1), hp.2⟩
    · exact hothers f hf p ⟨(hcut.holds p).mpr (.inr hp.1), hp.2⟩
  · have hcovers := hcut.holds (device, sector)
    simp only [Extent.span_holds] at hcovers
    rw [h.allocated]
    simp only [Allocated, List.mem_append, List.mem_cons, or_and_right, exists_or, exists_eq_left, hcovers]
    grind
  · simp only [List.length_append, List.length_cons] at hshort ⊢
    omega

/-! ### The laws -/

/-- Normalization yields the canonical list of the allocated sectors, however the input is ordered or sorted, and refuses a
    sector that is allocated twice; the overlap test finds exactly the shared sectors. -/
theorem extents_normal :
    (∀ extents result, normalize extents = .ok result →
      result.Pairwise (fun a b => a.device < b.device ∨
        a.device = b.device ∧ a.start.toNat + a.sectors.toNat < b.start.toNat) ∧
      (∀ device sector, Allocated result device sector ↔ Allocated extents device sector) ∧
      (∀ extents', extents'.Perm extents → normalize extents' = .ok result ∧
        ∀ sorted, SortedExtents extents' sorted → normalizeOnto [] sorted = .ok result) ∧
      normalize result = .ok result) ∧
    (∀ extents (i j : Fin extents.length) device sector, i ≠ j → (extents.get i).Covers device sector →
      (extents.get j).Covers device sector → ∀ extents', extents'.Perm extents → ∀ sorted, SortedExtents extents' sorted →
        (∃ e, normalize extents' = .error e) ∧ ∃ e, normalizeOnto [] sorted = .error e) ∧
    (∀ left right answer, overlap left right = .ok answer →
      (answer = true ↔ ∃ device sector, Allocated left device sector ∧ Allocated right device sector) ∧
      overlap right left = .ok answer ∧
      (∀ before e after k, left = before ++ e :: after → 0 < k → k < e.sectors →
        (before ++ e.split k ++ after).length ≤ maxExtents → overlap (before ++ e.split k ++ after) right = .ok answer)) := by
  refine ⟨fun extents result h => ?_, fun extents i j device sector hij hi hj extents' hperm sorted hsorted => ?_,
    fun left right answer h => ?_⟩
  · obtain ⟨hne, hlength, hform⟩ := normalize_ok_iff.mp h
    refine ⟨List.pairwise_map.mp hform.canonical.apart, hform.allocated, fun extents' hperm => ⟨?_, fun sorted hsorted => ?_⟩, ?_⟩
    · refine normalize_ok_iff.mpr ⟨?_, hperm.length_eq ▸ hlength, hform.perm hperm⟩
      rintro rfl
      exact hne hperm.nil_eq.symm
    · have hform' := hform.perm hperm
      obtain ⟨result', hresult'⟩ := normalizeOnto_complete hsorted hform'.valid hform'.apart
      rw [hresult', hform'.unique (normalizeOnto_sound hsorted hresult') fun _ _ => Iff.rfl]
    · exact normalize_ok_iff.mpr ⟨hform.ne_nil hne, hform.short.trans hlength, hform.self⟩
  · -- the two extents stand in one order or the other
    have hshared : ¬ApartExtents extents := by
      intro hapart
      rcases lt_or_gt_of_ne hij with hlt | hlt
      · exact List.pairwise_iff_get.mp hapart i j hlt (device, sector) ⟨hi, hj⟩
      · exact List.pairwise_iff_get.mp hapart j i hlt (device, sector) ⟨hj, hi⟩
    have hrefused : ∀ result, ¬NormalForm extents' result := fun result hform => hshared (hform.apart.perm hperm.symm)
    constructor
    · cases hresult : normalize extents' with
      | error e => exact ⟨e, rfl⟩
      | ok result => exact absurd (normalize_ok_iff.mp hresult).2.2 (hrefused result)
    · cases hresult : normalizeOnto [] sorted with
      | error e => exact ⟨e, rfl⟩
      | ok result => exact absurd (normalizeOnto_sound hsorted hresult) (hrefused result)
  · obtain ⟨⟨l, hl⟩, hright, hanswer⟩ := overlap_ok_iff.mp h
    refine ⟨hanswer, overlap_ok_iff.mpr ⟨hright, ⟨l, hl⟩, hanswer.trans ⟨ShareSector.symm, ShareSector.symm⟩⟩, ?_⟩
    rintro before e after k rfl hk hlt hlength
    have hform := (normalize_ok_iff.mp hl).2.2
    have hsplit := hform.split hk hlt
    refine overlap_ok_iff.mpr ⟨⟨l, normalize_ok_iff.mpr ⟨by simp [Extent.split], hlength, hsplit⟩⟩, hright, hanswer.trans ?_⟩
    simp only [ShareSector, ← hform.allocated, ← hsplit.allocated]

theorem extents_normal_adjacent :
    normalize [⟨"8:0", 10, 5⟩, ⟨"8:0", 0, 10⟩] = .ok [⟨"8:0", 0, 15⟩] ∧ normalize [⟨"8:0", 0, 15⟩] = .ok [⟨"8:0", 0, 15⟩] := by
  have hjoined : normalize [⟨"8:0", 10, 5⟩, ⟨"8:0", 0, 10⟩] = .ok [⟨"8:0", 0, 15⟩] := by decide +kernel
  exact ⟨hjoined, (extents_normal.1 _ _ hjoined).2.2.2⟩

end ShiftPV

import ShiftPV.MappingTable

/-! Decoding a device-mapper table. The bounds the decoder checks are sums and differences of machine words; none of them
    wraps, because each is taken only after the check that keeps it inside the data. -/

namespace ShiftPV
open Buffer Buffer.Access

/-! ### The machine's sums -/

section
variable {start size offset next : UInt32}

theorem header_toNat (hin : offset ≤ size) (hroom : sizeofDmTargetSpec ≤ size - offset) :
    (offset + sizeofDmTargetSpec).toNat = offset.toNat + 40 ∧ offset.toNat + 40 ≤ size.toNat := by
  have hsub := UInt32.toNat_sub_of_le _ _ hin
  have hle := UInt32.le_iff_toNat_le.mp hroom
  have hbound := size.toNat_lt
  have hspec : sizeofDmTargetSpec.toNat = 40 := rfl
  have hoffset := UInt32.le_iff_toNat_le.mp hin
  rw [UInt32.toNat_add]
  omega

theorem successor_toNat (hstart : start ≤ offset) (hin : offset ≤ size) (hroom : sizeofDmTargetSpec ≤ size - offset)
    (hbound : next ≤ size - start) (hafter : offset - start + sizeofDmTargetSpec < next) :
    (start + next).toNat = start.toNat + next.toNat ∧ offset.toNat + 40 < start.toNat + next.toNat ∧
      start.toNat + next.toNat ≤ size.toNat := by
  obtain ⟨-, hheader⟩ := header_toNat hin hroom
  have hwhole := UInt32.toNat_sub_of_le _ _ (UInt32.le_trans hstart hin)
  have hback := UInt32.toNat_sub_of_le _ _ hstart
  have hle := UInt32.le_iff_toNat_le.mp hbound
  have hlt := UInt32.lt_iff_toNat_lt.mp hafter
  have hfirst := UInt32.le_iff_toNat_le.mp hstart
  have hsize := size.toNat_lt
  have hspec : sizeofDmTargetSpec.toNat = 40 := rfl
  rw [UInt32.toNat_add] at hlt ⊢
  omega

end

/-! ### One record -/

section
variable {native : Native} {bytes : List UInt8} {start size offset stop : UInt32} {last : Bool} {segment : Segment}

theorem sub_bytes {lo hi : Nat} : ((⟨0, bytes⟩ : View).sub lo hi).bytes = bytesBetween bytes lo hi := rfl

theorem sub_base {lo hi : Nat} : ((⟨0, bytes⟩ : View).sub lo hi).base = lo := Nat.zero_add lo

theorem stop_toNat {next : UInt32} (hstart : start ≤ offset) (hin : offset ≤ size)
    (hroom : sizeofDmTargetSpec ≤ size - offset)
    (hnext : last ∨ next ≤ size - start ∧ offset - start + sizeofDmTargetSpec < next) :
    (if last then size else start + next).toNat = (if last then size.toNat else start.toNat + next.toNat) ∧
      offset.toNat + 40 ≤ (if last then size else start + next).toNat ∧
      (if last then size else start + next).toNat ≤ size.toNat := by
  obtain ⟨-, hheader⟩ := header_toNat hin hroom
  cases last with
  | true => exact ⟨rfl, hheader, Nat.le_refl _⟩
  | false =>
    obtain ⟨hsum, hafter, hbound⟩ :=
      successor_toNat hstart hin hroom (hnext.resolve_left (by simp)).1 (hnext.resolve_left (by simp)).2
    exact ⟨hsum, hsum ▸ hafter.le, hsum ▸ hbound⟩

/-- A turn reads only between the start of the data and its end. -/
theorem decodeDMTarget_within (hsize : size.toNat ≤ bytes.length) (hstart : start ≤ offset) :
    (decodeDMTarget native ⟨0, bytes⟩ start size offset last).Within start.toNat size.toNat := by
  have hfirst := UInt32.le_iff_toNat_le.mp hstart
  refine Within.after_check fun ⟨_, hin, hroom⟩ => ?_
  obtain ⟨hsum, hheader⟩ := header_toNat hin hroom
  rw [hsum]
  refine (View.slice_within (by omega) (by simp; omega) (by simp; omega) (by simp; omega)).bind fun target htarget => ?_
  obtain ⟨-, rfl⟩ := View.slice_ok.mp htarget
  have hlength : ((⟨0, bytes⟩ : View).sub offset.toNat (offset.toNat + 40)).bytes.length = 40 := by
    rw [View.length_sub (by omega) (by simp; omega)]
    omega
  -- the slices of the header lie inside it
  have hpart : ∀ lo hi, lo ≤ hi → hi ≤ 40 →
      (((⟨0, bytes⟩ : View).sub offset.toNat (offset.toNat + 40)).slice lo hi).Within start.toNat size.toNat := by
    intro lo hi hle hhi
    refine View.slice_within hle (by omega) ?_ ?_ <;> rw [sub_base] <;> omega
  refine (hpart 20 24 (by omega) (by omega)).bind fun nextBytes _ => Within.after_check fun hnext => ?_
  obtain ⟨-, hlow, hhigh⟩ := stop_toNat hstart hin hroom hnext
  refine (hpart 24 40 (by omega) (by omega)).bind fun kindBytes _ => Within.after_check fun _ => ?_
  refine (View.slice_within hlow (by simp; omega) (by simp; omega) (by simp; omega)).bind fun parameters _ => ?_
  refine Within.after_check fun _ => Within.ofExcept.bind fun pair _ => ?_
  refine (hpart 0 8 (by omega) (by omega)).bind fun startBytes _ => ?_
  exact (hpart 8 16 (by omega) (by omega)).bind fun sectorBytes _ => Within.pure _

/-- A record that was decoded: where it ends, that it is terminated, and what its segment is read from. -/
theorem decodeDMTarget_ok (hstart : start ≤ offset)
    (hok : (decodeDMTarget native ⟨0, bytes⟩ start size offset last).result = .ok (segment, stop)) :
    stop.toNat = (if last then size.toNat
        else start.toNat + (native.uint32 (bytesBetween bytes (offset.toNat + 20) (offset.toNat + 24))).toNat) ∧
      stop.toNat ≤ size.toNat ∧
      0 ∈ bytesBetween bytes (offset.toNat + 40) stop.toNat ∧
      segment.start = native.uint64 (bytesBetween bytes offset.toNat (offset.toNat + 8)) ∧
      segment.sectors = native.uint64 (bytesBetween bytes (offset.toNat + 8) (offset.toNat + 16)) ∧
      linearParameters ((bytesBetween bytes (offset.toNat + 40) stop.toNat).takeWhile (· ≠ 0))
        = .ok (segment.device, segment.offset) := by
  simp only [decodeDMTarget, bind_ok, check_ok, ofExcept_ok, pure_ok, View.slice_ok] at hok
  obtain ⟨-, ⟨-, hin, hroom⟩, -, ⟨-, rfl⟩, -, ⟨-, rfl⟩, -, hnext, -, ⟨-, rfl⟩, -, -, -, ⟨-, rfl⟩, -, hzero, pair, hpair,
    -, ⟨-, rfl⟩, -, ⟨-, rfl⟩, heq⟩ := hok
  obtain ⟨hsum, -⟩ := header_toNat hin hroom
  obtain ⟨hstop, -, hhigh⟩ := stop_toNat hstart hin hroom hnext
  simp only [hsum] at hnext hzero hpair heq hstop hhigh
  rw [View.sub_sub (by omega), sub_bytes] at hstop hzero hpair heq hhigh
  rw [View.sub_sub (by omega), View.sub_sub (by omega)] at heq
  simp only [sub_bytes, Nat.add_zero] at hzero hpair heq
  obtain ⟨rfl, rfl⟩ := Prod.mk.inj heq
  exact ⟨hstop, hhigh, hzero, rfl, rfl, hpair⟩

end

/-! ### The chain -/

section
variable {native : Native} {bytes : List UInt8} {start size offset stop : UInt32} {segments result : List Segment}

/-- A record that was decoded ends behind its header, so that the loop moves forward. -/
theorem decodeDMTarget_forward {last : Bool} {segment : Segment} (hstart : start ≤ offset)
    (hok : (decodeDMTarget native ⟨0, bytes⟩ start size offset last).result = .ok (segment, stop)) :
    offset.toNat + 40 < stop.toNat := by
  obtain ⟨-, -, hzero, -⟩ := decodeDMTarget_ok hstart hok
  have hlength := List.length_pos_of_mem hzero
  simp only [bytesBetween, List.length_take, List.length_drop] at hlength
  omega

theorem decodeDMTarget_start_le {last : Bool} {segment : Segment} (hstart : start ≤ offset)
    (hok : (decodeDMTarget native ⟨0, bytes⟩ start size offset last).result = .ok (segment, stop)) : start ≤ stop := by
  have hforward := decodeDMTarget_forward hstart hok
  have hfirst := UInt32.le_iff_toNat_le.mp hstart
  rw [UInt32.le_iff_toNat_le]
  omega

theorem decodeDMTargets_within (hsize : size.toNat ≤ bytes.length) :
    ∀ (remaining : Nat) (offset : UInt32) (segments : List Segment), start ≤ offset →
      (decodeDMTargets native ⟨0, bytes⟩ start size remaining offset segments).Within start.toNat size.toNat
  | 0, _, _, _ => Within.pure _
  | remaining + 1, offset, segments, hstart => by
    refine (decodeDMTarget_within hsize hstart).bind fun ⟨segment, stop⟩ hok => ?_
    exact decodeDMTargets_within hsize remaining stop _ (decodeDMTarget_start_le hstart hok)

structure DecodedRecord (native : Native) (bytes : List UInt8) (start size count i : Nat) (segment : Segment) : Prop where
  forward : recordAt native bytes start i + 40 < recordEnd native bytes start size count i
  inside : recordEnd native bytes start size count i ≤ size
  terminated : 0 ∈ recordParameters native bytes start size count i
  stands : RecordSegment native bytes start size count i segment

theorem DecodedRecord.not_broken {start size count i : Nat} {segment : Segment}
    (h : DecodedRecord native bytes start size count i segment) : ¬BrokenRecord native bytes start size count i := by
  rintro (hback | hout | hopen)
  · exact absurd h.forward (Nat.not_lt.mpr hback)
  · exact absurd h.inside (Nat.not_le.mpr hout)
  · exact hopen h.terminated

/-- A turn at the place of the record `i` decodes it and ends where the chain says. -/
theorem decodeDMTarget_record {count i remaining : Nat} {segment : Segment} (hstart : start ≤ offset)
    (hat : offset.toNat = recordAt native bytes start.toNat i) (hcount : i + (remaining + 1) = count)
    (hok : (decodeDMTarget native ⟨0, bytes⟩ start size offset (remaining = 0)).result = .ok (segment, stop)) :
    stop.toNat = recordEnd native bytes start.toNat size.toNat count i ∧
      DecodedRecord native bytes start.toNat size.toNat count i segment := by
  have hforward := decodeDMTarget_forward hstart hok
  obtain ⟨hstop, hinside, hzero, hfirst, hsectors, hparameters⟩ := decodeDMTarget_ok hstart hok
  have hend : stop.toNat = recordEnd native bytes start.toNat size.toNat count i := by
    rw [hstop, recordEnd, recordAt, ← hat]
    by_cases hlast : remaining = 0
    · rw [if_pos (by simpa using hlast), if_neg (by omega)]
    · rw [if_neg (by simpa using hlast), if_pos (by omega)]
  rw [hat, hend] at hforward hzero hparameters
  rw [hat] at hfirst hsectors
  exact ⟨hend, hforward, hend ▸ hinside, hzero, hfirst, hsectors, hparameters⟩

/-- The loop at the record `i` returns the segments it has, followed by one for each record that is left. -/
theorem decodeDMTargets_ok {count : Nat} : ∀ {remaining i : Nat} {offset : UInt32} {segments : List Segment},
    start ≤ offset → offset.toNat = recordAt native bytes start.toNat i → i + remaining = count →
      (decodeDMTargets native ⟨0, bytes⟩ start size remaining offset segments).result = .ok result →
      ∃ rest, result = segments ++ rest ∧ rest.length = remaining ∧
        ∀ j segment, rest[j]? = some segment →
          DecodedRecord native bytes start.toNat size.toNat count (i + j) segment
  | 0, i, offset, segments, _, _, _, hok => by
    obtain rfl := pure_ok.mp hok
    exact ⟨[], (List.append_nil _).symm, rfl, by simp⟩
  | remaining + 1, i, offset, segments, hstart, hat, hcount, hok => by
    obtain ⟨⟨segment, stop⟩, hturn, hrest⟩ := bind_ok.mp hok
    obtain ⟨hend, hrecord⟩ := decodeDMTarget_record hstart hat hcount hturn
    -- the next turn begins where the chain places the next record; after the last one there is no next turn
    have hnext : remaining ≠ 0 → stop.toNat = recordAt native bytes start.toNat (i + 1) := by
      intro hmore
      rw [hend, recordEnd, if_pos (by omega)]
    cases remaining with
    | zero =>
      obtain rfl := pure_ok.mp hrest
      refine ⟨[segment], rfl, rfl, fun j s hs => ?_⟩
      obtain ⟨rfl, rfl⟩ : j = 0 ∧ segment = s := by
        cases j with
        | zero => simpa using hs
        | succ j => simp at hs
      exact hrecord
    | succ remaining =>
      have hcount' : i + 1 + (remaining + 1) = count := by omega
      obtain ⟨rest, rfl, hlength, hall⟩ :=
        decodeDMTargets_ok (decodeDMTarget_start_le hstart hturn) (hnext (by omega)) hcount' hrest
      refine ⟨segment :: rest, by simp, by simp [hlength], fun j s hs => ?_⟩
      cases j with
      | zero =>
        obtain rfl : segment = s := by simpa using hs
        exact hrecord
      | succ j =>
        have hj := hall j s (by simpa using hs)
        rwa [show i + 1 + j = i + (j + 1) by omega] at hj

theorem recordEnd_le_recordAt {start size count : Nat}
    (hforward : ∀ i < count, recordAt native bytes start i + 40 < recordEnd native bytes start size count i) {i : Nat} :
    ∀ {j : Nat}, i < j → j < count → recordEnd native bytes start size count i ≤ recordAt native bytes start j
  | j + 1, hij, hj => by
    have hstep : recordEnd native bytes start size count j = recordAt native bytes start (j + 1) := by
      rw [recordEnd, if_pos hj]
    rcases Nat.lt_or_ge i j with hlt | hge
    · have hback := recordEnd_le_recordAt hforward hlt (by omega)
      have hmove := hforward j (by omega)
      omega
    · obtain rfl : i = j := by omega
      exact hstep.le

end

/-- The decoder on any buffer. It never leaves the data the answer declares, and that data lies in the buffer. When it
    succeeds it returns one segment for each record of the chain, in order, and the records advance without overlap inside
    the data. A chain with a broken record is refused. -/
theorem decodeDMTable_exact (native : Native) (bytes : List UInt8) (start size count : UInt32) :
    let outcome := decodeDMTable native ⟨0, bytes⟩ start size count
    (outcome.result ≠ .error .panic ∧
      ∀ s ∈ outcome.reads, start.toNat ≤ s.lo ∧ s.lo ≤ s.hi ∧ s.hi ≤ size.toNat ∧ size.toNat ≤ bytes.length) ∧
    (∀ segments, outcome.result = .ok segments →
      segments.length = count.toNat ∧
      (∀ i segment, segments[i]? = some segment →
        RecordSegment native bytes start.toNat size.toNat count.toNat i segment) ∧
      (∀ i < count.toNat, start.toNat ≤ recordAt native bytes start.toNat i ∧
        recordAt native bytes start.toNat i + 40 < recordEnd native bytes start.toNat size.toNat count.toNat i ∧
        recordEnd native bytes start.toNat size.toNat count.toNat i ≤ size.toNat) ∧
      ∀ i j, i < j → j < count.toNat →
        recordEnd native bytes start.toNat size.toNat count.toNat i ≤ recordAt native bytes start.toNat j) ∧
    ∀ i < count.toNat, BrokenRecord native bytes start.toNat size.toNat count.toNat i →
      ∃ text, outcome.result = .error (.refused text) := by
  intro outcome
  -- the checks of the header come before any read
  have hwithin : outcome.Within start.toNat size.toNat :=
    Within.after_check fun ⟨hsize, _⟩ =>
      decodeDMTargets_within (hsize.trans (Nat.mod_le _ _)) _ _ _ (UInt32.le_refl _)
  have hdecoded : ∀ segments, outcome.result = .ok segments → segments.length = count.toNat ∧
      ∀ i segment, segments[i]? = some segment →
        DecodedRecord native bytes start.toNat size.toNat count.toNat i segment := by
    intro segments hok
    obtain ⟨-, -, hloop⟩ := bind_ok.mp hok
    obtain ⟨rest, rfl, hlength, hall⟩ :=
      decodeDMTargets_ok (i := 0) (UInt32.le_refl _) rfl (Nat.zero_add _) hloop
    exact ⟨hlength, fun i segment hi => Nat.zero_add i ▸ hall i segment hi⟩
  have hrecord : ∀ segments, outcome.result = .ok segments → ∀ i < count.toNat,
      ∃ segment, DecodedRecord native bytes start.toNat size.toNat count.toNat i segment := by
    intro segments hok i hi
    obtain ⟨hlength, hall⟩ := hdecoded segments hok
    exact ⟨_, hall i _ (List.getElem?_eq_getElem (hlength ▸ hi))⟩
  refine ⟨⟨hwithin.1, fun s hs => ?_⟩, fun segments hok => ?_, fun i hi hbroken => ?_⟩
  · obtain ⟨hlo, hle, hhi⟩ := hwithin.2 s hs
    exact ⟨hlo, hle, hhi, (reads_after_check hs).1.trans (Nat.mod_le _ _)⟩
  · obtain ⟨hlength, hall⟩ := hdecoded segments hok
    have hforward : ∀ i < count.toNat, recordAt native bytes start.toNat i + 40
        < recordEnd native bytes start.toNat size.toNat count.toNat i := by
      intro i hi
      obtain ⟨segment, hi⟩ := hrecord segments hok i hi
      exact hi.forward
    refine ⟨hlength, fun i segment hi => (hall i segment hi).stands, fun i hi => ⟨?_, hforward i hi, ?_⟩, ?_⟩
    · cases i with
      | zero => exact Nat.le_refl _
      | succ i => exact Nat.le_add_right _ _
    · obtain ⟨segment, hi⟩ := hrecord segments hok i hi
      exact hi.inside
    · intro i j hij hj
      exact recordEnd_le_recordAt hforward hij hj
  · rcases hwithin.result_cases with ⟨segments, hok⟩ | hrefused
    · obtain ⟨segment, hdone⟩ := hrecord segments hok i hi
      exact absurd hbroken hdone.not_broken
    · exact hrefused

/-- A record of a linear mapping: eight sectors at `first` on the device 8:16, its successor at `next`. -/
def linearRecord (first next : UInt8) : List UInt8 :=
  [first, 0, 0, 0, 0, 0, 0, 0] ++ [8, 0, 0, 0, 0, 0, 0, 0] ++ [0, 0, 0, 0] ++ [next, 0, 0, 0]
    ++ (asciiBytes "linear" ++ List.replicate 10 0) ++ (asciiBytes "8:16 2048" ++ List.replicate 7 0)

theorem decodeDMTable_exact_linear :
    let bytes := List.replicate 312 0 ++ linearRecord 0 56 ++ linearRecord 8 0
    (decodeDMTable littleNative ⟨0, bytes⟩ 312 424 2).result.toOption
        = some [⟨0, 8, "8:16", 2048⟩, ⟨8, 8, "8:16", 2048⟩] ∧
      recordEnd littleNative bytes 312 424 2 0 ≤ recordAt littleNative bytes 312 1 := by
  intro bytes
  have hdecoded : (decodeDMTable littleNative ⟨0, bytes⟩ 312 424 2).result.toOption
      = some [⟨0, 8, "8:16", 2048⟩, ⟨8, 8, "8:16", 2048⟩] := by
    decide +kernel
  refine ⟨hdecoded, ?_⟩
  cases hresult : (decodeDMTable littleNative ⟨0, bytes⟩ 312 424 2).result with
  | error fault => simp [hresult, Except.toOption] at hdecoded
  | ok segments =>
    obtain ⟨-, hsuccess, -⟩ := decodeDMTable_exact littleNative bytes 312 424 2
    obtain ⟨-, -, -, hapart⟩ := hsuccess segments hresult
    exact hapart 0 1 (by decide) (by decide)

end ShiftPV

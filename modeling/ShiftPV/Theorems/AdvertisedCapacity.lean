import ShiftPV.Theorems.LedgerArithmetic
import ShiftPV.Theorems.PoolIsolation

/-! What is advertised is what is admitted. The headroom of a Pool is computed from the recorded filesystem numbers with
    more conditions than an admission checks; the observation that records a Pool as Ready has already checked them. -/

namespace ShiftPV
open Check

variable {r : PoolReader} {pool : MeasuredPool} {result : Inspection} {volumes : Table VolumeObject.id} {moves : List Move}
  {requested reserved limit : Int}

/-! ### The library -/

/-- What the API library answers: the empty text is no quantity, and bytes are a 64 bit number; a condition that was set is
    found, and what is set or removed leaves the conditions of other types alone. -/
structure ApiLibrary.Lawful (api : ApiLibrary) : Prop where
  empty : ∀ value, api.parseQuantity "" ≠ .ok (some value)
  range : ∀ text value, api.parseQuantity text = .ok (some value) → value ≤ maxInt64
  find_set : ∀ conditions condition type, api.conditions.find (api.conditions.set conditions condition) type =
    if condition.type = type then some condition else api.conditions.find conditions type
  find_remove : ∀ conditions removed type, type ≠ removed →
    api.conditions.find (api.conditions.remove conditions removed) type = api.conditions.find conditions type
  find_empty : ∀ type, api.conditions.find [] type = none

theorem parseLimitBytes_quantity {text : String} (h : r.parseLimitBytes text = .ok limit) : r.parseQuantity text = .ok (some limit) := by
  rw [PoolReader.parseLimitBytes, bind_ok] at h
  obtain ⟨parsed, hparsed, h⟩ := h
  cases parsed with
  | none => simp at h
  | some value =>
    simp only [seq_ok, pure_ok] at h
    rw [hparsed, h.2]

/-! ### Observations -/

theorem observedConditions_ready (hlawful : r.Lawful)
    (h : (r.conditions.find (observedConditions r pool result) .ready).any (·.isTrue)) : result.readyCheck.ok := by
  have hinspected : r.conditions.find (inspectedConditions r pool result) .ready =
      some (result.readyCheck.condition .ready pool.generation) := by
    rw [inspectedConditions, Inspection.conditions, List.foldl_append, List.foldl_cons, List.foldl_cons, List.foldl_cons,
      List.foldl_nil, hlawful.find_set]
    exact if_pos rfl
  unfold observedConditions at h
  rw [hlawful.find_remove _ _ _ (by decide)] at h
  split at h
  · rename_i hconfiguration
    simp [hlawful.find_set, RegistrationCheck.condition, hconfiguration] at h
  · split at h
    · simp [hlawful.find_set, RegistrationCheck.condition, RegistrationCheck.failed] at h
    · simp only [hinspected, Option.any_some, RegistrationCheck.condition, Bool.and_eq_true] at h
      exact h.2

theorem Inspection.readyCheck_inv (h : result.readyCheck.ok) :
    result.capacityReadable.ok ∧ 0 < result.filesystem.availableBytes ∧ 0 < result.filesystem.availableInodes := by
  unfold Inspection.readyCheck at h
  split at h
  · simp at h
  · rename_i hpassed
    split at h
    · simp [RegistrationCheck.failed] at h
    · have hreadable := List.find?_eq_none.mp hpassed result.capacityReadable (by simp [Inspection.checks])
      simp only [Bool.or_eq_true, Bool.not_eq_true', not_or, Bool.not_eq_false] at hreadable
      exact ⟨hreadable.2, by omega, by omega⟩

theorem blockBytes_ok {blocks size : Nat} {bytes : Int} (h : blockBytes blocks size = .ok bytes) : bytes ≤ maxInt64 := by
  rw [blockBytes, seq_ok, require_ok, pure_ok] at h
  obtain ⟨hfits, rfl⟩ := h
  by_cases hsize : (size : Int) = 0
  · simp [hsize, maxInt64]
  · have hfits := hfits.resolve_left (by omega)
    have hdiv : (blocks : Int) ≤ maxInt64 / size := by
      have : (0 : Int) ≤ maxInt64 / size := Int.ediv_nonneg (by decide) (by omega)
      omega
    calc (blocks : Int) * size ≤ maxInt64 / size * size := Int.mul_le_mul_of_nonneg_right hdiv (by omega)
      _ ≤ maxInt64 := Int.ediv_mul_le _ hsize

theorem Inspection.filesystem_available (result : Inspection) : result.filesystem.availableBytes ≤ maxInt64 := by
  have hzero : (0 : Int) ≤ maxInt64 := by decide
  unfold Inspection.filesystem StatRead.observed
  split
  · exact hzero
  · rename_i stat _
    split
    · exact hzero
    · rename_i stats hparsed
      rw [parseStatOutput, bind_ok] at hparsed
      obtain ⟨total, -, hparsed⟩ := hparsed
      rw [bind_ok] at hparsed
      obtain ⟨available, havailable, hparsed⟩ := hparsed
      rw [seq_ok, pure_ok] at hparsed
      obtain ⟨-, rfl⟩ := hparsed
      cases hbytes : blockBytes stat.bavail stat.bsize with
      | error e => simp [hbytes, Except.mapError] at havailable
      | ok bytes =>
        obtain rfl : bytes = available := by simpa [hbytes, Except.mapError] using havailable
        exact blockBytes_ok hbytes

structure MeasuredPool.Spacious (pool : MeasuredPool) (available inodes : Int) : Prop where
  availableBytes : pool.filesystemAvailableBytes = some available
  availableInodes : pool.filesystemAvailableInodes = some inodes
  bytes : 0 < available
  inodes : 0 < inodes
  range : available ≤ maxInt64

def MeasuredPool.Recorded (api : ApiLibrary) (pool : MeasuredPool) : Prop :=
  (api.conditions.find pool.status.conditions .ready).any (·.isTrue) → ∃ available inodes, pool.Spacious available inodes

theorem observedStatus_recorded (hlawful : r.Lawful) (inventory : Option ObservedInventory) :
    (observedStatus r pool result inventory).Recorded r.toApiLibrary := by
  intro hready
  obtain ⟨hreadable, hbytes, hinodes⟩ := Inspection.readyCheck_inv (observedConditions_ready hlawful hready)
  exact ⟨_, _, by simp [observedStatus, hreadable], by simp [observedStatus, hreadable], hbytes, hinodes, result.filesystem_available⟩

theorem reconcilePool_recorded (hlawful : r.Lawful) (inventory : Option ObservedInventory) (release : RegistrationCheck) :
    (reconcilePool r pool result inventory release).Recorded r.toApiLibrary := by
  unfold reconcilePool
  split
  · intro hready
    simp [retiredStatus, hlawful.find_set, RegistrationCheck.condition, RegistrationCheck.failed] at hready
  · dsimp only
    split
    · exact observedStatus_recorded hlawful inventory
    · intro hready
      obtain ⟨available, inodes, hspace⟩ := @observedStatus_recorded r pool result hlawful inventory
        (by simpa [hlawful.find_set, RegistrationCheck.condition] using hready)
      exact ⟨available, inodes, hspace.availableBytes, hspace.availableInodes, hspace.bytes, hspace.inodes, hspace.range⟩

/-! ### Stored Pools -/

section
variable {api : ApiLibrary} {pools pools' : PoolTable} {act : PoolAct}

theorem MeasuredPool.Recorded.transfer {other : MeasuredPool} (h : pool.Recorded api)
    (hconditions : other.status.conditions = pool.status.conditions)
    (havailable : other.filesystemAvailableBytes = pool.filesystemAvailableBytes)
    (hinodes : other.filesystemAvailableInodes = pool.filesystemAvailableInodes) : other.Recorded api := by
  intro hready
  obtain ⟨available, inodes, hspace⟩ := h (hconditions ▸ hready)
  exact ⟨available, inodes, havailable.trans hspace.availableBytes, hinodes.trans hspace.availableInodes, hspace.bytes, hspace.inodes,
    hspace.range⟩

theorem recordPoolCapacityProbe_conditions {expected current next : RegisteredPool} {result : CapacityProbeResult}
    (h : RegisteredPool.recordPoolCapacityProbe expected result current = .ok next) :
    next.status.conditions = current.status.conditions := by
  simp only [RegisteredPool.recordPoolCapacityProbe, RegisteredPool.mutatePoolProbe, seq_ok, pure_ok] at h
  rw [← h.2.2.2]

theorem setStatus_conditions {uid nodeName : String} {status : RegisteredPoolStatus} {current next : RegisteredPool}
    (h : RegisteredPool.setStatus uid nodeName status current = .ok next) : next.status.conditions = status.conditions := by
  simp only [RegisteredPool.setStatus, seq_ok, pure_ok] at h
  rw [← h.2.2.2.2.2.2.2]

theorem PoolTable.stored_ok {name : String} (h : pools.stored name = .ok pool) : pool ∈ pools.rows := by
  unfold PoolTable.stored at h
  split at h
  · simp at h
  · rename_i hfind
    obtain rfl := pure_ok.mp h
    exact Table.mem_of_find hfind

theorem PoolTable.next_recorded (hlawful : api.Lawful) (hall : ∀ pool ∈ pools.rows, pool.Recorded api)
    (hnext : PoolTable.next api pools act = .ok pools') : ∀ pool ∈ pools'.rows, pool.Recorded api := by
  have hput : ∀ {stored : MeasuredPool}, stored.Recorded api → ∀ pool ∈ (pools.put stored).rows, pool.Recorded api := by
    intro stored hstored pool hpool
    rcases Table.mem_put.mp hpool with rfl | ⟨hpool, -⟩
    · exact hstored
    · exact hall pool hpool
  cases act with
  | register pool =>
    rw [PoolTable.next, seq_ok] at hnext
    obtain rfl := pure_ok.mp hnext.2
    refine hput fun hready => ?_
    simp [RegisteredPool.created, hlawful.find_empty] at hready
  | edit pool =>
    obtain ⟨current, hcurrent, hnext⟩ := bind_ok.mp hnext
    obtain rfl := pure_ok.mp hnext
    exact hput ((hall current (stored_ok hcurrent)).transfer rfl rfl rfl)
  | remove name =>
    obtain rfl := pure_ok.mp hnext
    exact fun pool hpool => hall pool (Table.mem_erase.mp hpool).1
  | answer expected result =>
    obtain ⟨current, hcurrent, hnext⟩ := bind_ok.mp hnext
    obtain ⟨answered, hrecord, hnext⟩ := bind_ok.mp hnext
    obtain rfl := pure_ok.mp hnext
    exact hput ((hall current (stored_ok hcurrent)).transfer (recordPoolCapacityProbe_conditions hrecord) rfl rfl)
  | reconcile now nodeName read result inventory release =>
    obtain ⟨current, hcurrent, hnext⟩ := bind_ok.mp hnext
    obtain ⟨written, hwrite, hnext⟩ := bind_ok.mp hnext
    obtain rfl := pure_ok.mp hnext
    have hobserved := @reconcilePool_recorded { api with now, staleAfter := 0 } read result hlawful inventory release
    exact hput (hobserved.transfer (setStatus_conditions hwrite) rfl rfl)

theorem PoolRun.recorded {past : List PoolTable} (hlawful : api.Lawful) (hrun : PoolRun api (pools :: past)) :
    ∀ pool ∈ pools.rows, pool.Recorded api := by
  refine hrun.forall_mem (I := fun pools => ∀ pool ∈ pools.rows, pool.Recorded api) ?_ (fun {s t past act} _ hall hstep => ?_) pools
    List.mem_cons_self
  · rintro _ rfl
    simp [Table.empty]
  · exact PoolTable.next_recorded hlawful (hall s List.mem_cons_self) (Run.onHead_cons.mp hstep)

end

theorem poolReady_condition {pool : RegisteredPool} (h : r.poolReady pool = .ok ()) :
    (r.conditions.find pool.status.conditions .ready).any (·.isTrue) := by
  rw [PoolReader.poolReady, seq_ok, bind_ok] at h
  obtain ⟨-, reason, hready, -⟩ := h
  rw [RegisteredPool.readyAt, seq_ok, seq_ok, seq_ok, seq_ok, require_ok] at hready
  exact require_ok.mp hready.2.2.2.1

/-! ### One Pool -/

theorem MeasuredPool.Spacious.headroom {available inodes : Int} (h : pool.Spacious available inodes) (hlawful : r.Lawful)
    (hwithin : available ≤ pool.filesystemTotalBytes) (hreserved : 0 ≤ reserved ∧ reserved ≤ maxInt64) :
    (∀ limit, r.parseLimitBytes pool.capacityLimit = .ok limit → observedPoolHeadroom r pool reserved =
      if reserved < limit then min (limit - reserved) available else 0) ∧
    (∀ e, r.parseLimitBytes pool.capacityLimit = .error e → observedPoolHeadroom r pool reserved = 0) := by
  have hbytes := h.bytes
  have hinodes := h.inodes
  refine ⟨fun limit hlimit => ?_, fun e herror => by simp [observedPoolHeadroom, herror]⟩
  have hdiff := int64_sub ⟨(parseLimitBytes_positive hlimit).le, hlawful.range _ _ (parseLimitBytes_quantity hlimit)⟩ hreserved
  simp only [observedPoolHeadroom, hlimit, h.availableBytes, h.availableInodes, hdiff]
  by_cases hroom : reserved < limit
  · rw [if_neg (by omega), if_neg (by omega), if_pos hroom]
  · rw [if_pos (by omega), if_neg hroom]

theorem MeasuredPool.Spacious.headroom_range {available inodes : Int} (h : pool.Spacious available inodes) (hlawful : r.Lawful)
    (hwithin : available ≤ pool.filesystemTotalBytes) (hreserved : 0 ≤ reserved ∧ reserved ≤ maxInt64) :
    0 ≤ observedPoolHeadroom r pool reserved ∧ observedPoolHeadroom r pool reserved ≤ maxInt64 := by
  obtain ⟨hparsed, hunparsed⟩ := h.headroom hlawful hwithin hreserved
  have hbytes := h.bytes
  have hrange := h.range
  cases hlimit : r.parseLimitBytes pool.capacityLimit with
  | error e =>
    rw [hunparsed e hlimit]
    exact ⟨le_rfl, by decide⟩
  | ok limit =>
    rw [hparsed limit hlimit]
    split <;> constructor <;> omega

/-- A request fits a Ready Pool exactly when it is within the advertised headroom. -/
theorem MeasuredPool.Spacious.fits_iff {available inodes : Int} (h : pool.Spacious available inodes) (hlawful : r.Lawful)
    (hwithin : available ≤ pool.filesystemTotalBytes) (hread : reservedBytesForPool volumes moves pool.uid = .ok reserved) (hrequested : 0 < requested) (total : Int) :
    poolFits r pool.toRegisteredPool requested volumes moves
        (.ok { totalBytes := total, availableBytes := available, availableInodes := inodes }) = .ok true ↔
      requested ≤ observedPoolHeadroom r pool reserved := by
  have hreserved := reserved_range hread
  obtain ⟨hparsed, hunparsed⟩ := h.headroom hlawful hwithin hreserved
  cases hlimit : r.parseLimitBytes pool.capacityLimit with
  | error e =>
    have hdenied : ∃ e, poolLimitBytes r pool.toRegisteredPool = .error e := by
      cases hpool : poolLimitBytes r pool.toRegisteredPool with
      | error e => exact ⟨e, rfl⟩
      | ok limit =>
        rw [poolLimitBytes, seq_ok, hlimit] at hpool
        exact absurd hpool.2 (by simp)
    obtain ⟨e', hdenied⟩ := hdenied
    have hfalse : ¬requested ≤ 0 := by omega
    simp [poolFits, hdenied, hunparsed e hlimit, hfalse]
  | ok limit =>
    have hset : pool.capacityLimit ≠ "" := fun hempty => hlawful.empty limit (parseLimitBytes_quantity (hempty ▸ hlimit))
    have hpool : poolLimitBytes r pool.toRegisteredPool = .ok limit := by
      rw [poolLimitBytes, seq_ok, require_ok]
      exact ⟨hset, hlimit⟩
    have hfits : fitsReservation requested reserved limit ↔ requested ≤ limit - reserved := by
      rw [fitsReservation_iff hreserved.1]
      omega
    rw [hparsed limit hlimit]
    simp only [poolFits, hpool, hread]
    show (if ¬fitsReservation requested reserved limit then Except.ok false else
      Except.ok (decide (requested ≤ available))) = Except.ok true ↔ _
    by_cases hroom : fitsReservation requested reserved limit
    · have hwithin := hfits.mp hroom
      rw [if_neg (by simp [hroom]), if_pos (by omega), Except.ok.injEq, decide_eq_true_eq]
      omega
    · have hover : ¬requested ≤ limit - reserved := fun hwithin => hroom (hfits.mpr hwithin)
      rw [if_pos hroom]
      split <;> simp <;> omega

/-! ### All Pools -/

def ledgerHeadroom (r : PoolReader) (volumes : Table VolumeObject.id) (moves : List Move) (pool : MeasuredPool) : Int :=
  match reservedBytesForPool volumes moves pool.uid with
  | .ok reserved => observedPoolHeadroom r pool reserved
  | .error _ => 0

theorem CapacityResponse.add_available {response : CapacityResponse} {available : Int}
    (hresponse : 0 ≤ response.availableCapacity ∧ response.availableCapacity ≤ maxInt64)
    (havailable : 0 ≤ available ∧ available ≤ maxInt64) :
    (response.add available).availableCapacity = min maxInt64 (response.availableCapacity + available) := by
  have hmax : 0 ≤ maxInt64 := by decide
  have hdiff := int64_sub ⟨hmax, le_refl maxInt64⟩ hresponse
  rw [CapacityResponse.add]
  simp only [hdiff]
  split
  · omega
  · have hsum : int64 (response.availableCapacity + available) = response.availableCapacity + available := by
      unfold maxInt64 at *
      rw [int64, Int.bmod_eq_of_le] <;> omega
    omega

theorem addHeadrooms_ok {pools : List MeasuredPool} (hpools : ∀ pool ∈ pools,
      (∃ reserved, reservedBytesForPool volumes moves pool.uid = .ok reserved) ∧
        0 ≤ ledgerHeadroom r volumes moves pool ∧ ledgerHeadroom r volumes moves pool ≤ maxInt64)
    (response : CapacityResponse) (hresponse : 0 ≤ response.availableCapacity ∧ response.availableCapacity ≤ maxInt64) :
    ∃ total, addHeadrooms r volumes moves response pools = .ok total ∧
      total.availableCapacity = min maxInt64 (response.availableCapacity + (pools.map (ledgerHeadroom r volumes moves)).sum) ∧
      ∀ requested, requested ≤ total.maximumVolumeSize ↔
        requested ≤ response.maximumVolumeSize ∨ ∃ pool ∈ pools, requested ≤ ledgerHeadroom r volumes moves pool := by
  induction pools generalizing response with
  | nil =>
    refine ⟨response, rfl, ?_, by simp⟩
    rw [List.map_nil, List.sum_nil]
    omega
  | cons pool rest ih =>
    obtain ⟨⟨⟨reserved, hread⟩, hheadroom⟩, hrest⟩ := List.forall_mem_cons.mp hpools
    have hown : ledgerHeadroom r volumes moves pool = observedPoolHeadroom r pool reserved := by rw [ledgerHeadroom, hread]
    rw [hown] at hheadroom
    have hadded := CapacityResponse.add_available hresponse hheadroom
    have hrestNonneg : 0 ≤ (rest.map (ledgerHeadroom r volumes moves)).sum := by
      refine List.sum_nonneg fun amount hamount => ?_
      obtain ⟨other, hother, rfl⟩ := List.mem_map.mp hamount
      exact (hrest other hother).2.1
    obtain ⟨total, htotal, havailable, hmaximum⟩ := ih hrest (response.add (observedPoolHeadroom r pool reserved))
      (by rw [hadded]; omega)
    refine ⟨total, ?_, ?_, fun requested => ?_⟩
    · rw [addHeadrooms, hread]
      exact htotal
    · rw [havailable, hadded, List.map_cons, List.sum_cons, hown]
      omega
    · simp only [hmaximum, List.mem_cons, exists_eq_or_imp, hown, CapacityResponse.add, le_max_iff, or_assoc]

def twentyReader : PoolReader :=
  { sampleReader with parseQuantity := fun text => if text = "" then .error "empty" else .ok (some 20) }

theorem listConditions_find_set (conditions : List PoolCondition) (condition : PoolCondition) (type : PoolConditionType) :
    listConditions.find (listConditions.set conditions condition) type =
      if condition.type = type then some condition else listConditions.find conditions type := by
  simp only [listConditions]
  induction conditions with
  | nil => by_cases h : condition.type = type <;> simp [setStatusCondition, h]
  | cons old rest ih =>
    rw [setStatusCondition]
    by_cases hsame : old.type = condition.type
    · rw [if_pos hsame]
      by_cases h : condition.type = type
      · simp [h]
      · simp [h, hsame]
    · rw [if_neg hsame]
      by_cases hold : old.type = type
      · have hother : condition.type ≠ type := fun h => hsame (hold.trans h.symm)
        simp [hold, hother]
      · simp [hold, ih]

theorem twentyReader_lawful : twentyReader.Lawful where
  empty value h := by simp [twentyReader] at h
  range text value h := by
    by_cases htext : text = ""
    · simp [twentyReader, htext] at h
    · obtain rfl : 20 = value := by simpa [twentyReader, htext] using h
      decide
  find_set := listConditions_find_set
  find_remove conditions removed type hne := by
    simp only [twentyReader, sampleReader, listConditions, List.find?_filter]
    congr 1
    funext c
    by_cases hc : c.type = type <;> simp [hc, hne]
  find_empty _ := rfl

/-- A registration and a passed observation of a filesystem with so many blocks of one byte, eight of them available. -/
def observedScript (blocks : Nat) : List PoolAct :=
  let ok : RegistrationCheck := { ok := true, known := true, reason := "Ok", message := "" }
  let pool := fixedPool "pool" "/data" "" 0
  [.register pool, .reconcile 99 "node" pool.created
    { backing := ok, independent := ok, accessible := ok, mounted := .passed, writable := ok, stat := .answered ⟨blocks, 8, 1, 3⟩
      capacityUnit := pool.status.capacityUnit, mountIdentity := none } pool.status.inventory .passed]

def observedPools (blocks : Nat) : List PoolTable := Run.replay (PoolTable.next twentyReader.toApiLibrary) (.empty _) [] (observedScript blocks)

def eightFree (blocks : Int) : Filesystem := { totalBytes := blocks, availableBytes := 8, availableInodes := 3 }

def Placeable (pools : PoolTable) (blocks : Int) : Prop :=
  ∀ pool ∈ pools.rows, twentyReader.poolReady pool.toRegisteredPool = .ok () ∧
    reservedBytesForPool (.empty _) [] pool.uid = .ok 0 ∧ pool.filesystemTotalBytes = blocks ∧
    pool.filesystemAvailableBytes = some 8 ∧ pool.filesystemAvailableInodes = some 3

instance (pools : PoolTable) (blocks : Int) : Decidable (Placeable pools blocks) := inferInstanceAs (Decidable (∀ _ ∈ _, _))

end ShiftPV
